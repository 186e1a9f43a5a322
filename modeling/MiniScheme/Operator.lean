/-! The operators every program starts with. -/
namespace MiniScheme

/-- Procedures that are applied to evaluated arguments. -/
inductive Primitive where
  | cons | car | cdr | setCar | setCdr | list
  | add | mul | sub | div
  | eq | lt | gt | le | ge
  | isNull | isPair | isNumber | isSymbol | isProcedure | isVector
  | isEq | not | force
  | vector | vectorLength | vectorRef | vectorSet
  | load
  deriving DecidableEq, Repr

namespace Primitive

def name : Primitive → String
  | cons => "cons"
  | car => "car"
  | cdr => "cdr"
  | setCar => "set-car!"
  | setCdr => "set-cdr!"
  | list => "list"
  | add => "+"
  | mul => "*"
  | sub => "-"
  | div => "/"
  | eq => "="
  | lt => "<"
  | gt => ">"
  | le => "<="
  | ge => ">="
  | isNull => "null?"
  | isPair => "pair?"
  | isNumber => "number?"
  | isSymbol => "symbol?"
  | isProcedure => "procedure?"
  | isVector => "vector?"
  | isEq => "eq?"
  | not => "not"
  | force => "force"
  | vector => "vector"
  | vectorLength => "vector-length"
  | vectorRef => "vector-ref"
  | vectorSet => "vector-set!"
  | load => "load"

def all : List Primitive :=
  [cons, car, cdr, setCar, setCdr, list, add, mul, sub, div, eq, lt, gt, le, ge, isNull, isPair,
    isNumber, isSymbol, isProcedure, isVector, isEq, not, force, vector, vectorLength, vectorRef,
    vectorSet, load]

end Primitive

/-- Operators that receive their operands unevaluated. -/
inductive SpecialForm where
  | lambda | define | defineSyntax | syntaxRules | quotation | conditional | sequence
  | localBinding | delay
  deriving DecidableEq, Repr

namespace SpecialForm

def name : SpecialForm → String
  | lambda => "lambda"
  | define => "define"
  | defineSyntax => "define-syntax"
  | syntaxRules => "syntax-rules"
  | quotation => "quote"
  | conditional => "if"
  | sequence => "begin"
  | localBinding => "let"
  | delay => "delay"

def all : List SpecialForm :=
  [lambda, define, defineSyntax, syntaxRules, quotation, conditional, sequence, localBinding, delay]

end SpecialForm
end MiniScheme
