/-! The coarse type of a value, as argument checks and messages see it. -/
namespace MiniScheme

inductive Kind where
  | unspecified | nil | boolean | char | string | symbol
  | int | fraction | float | complex | nan | infinite
  | pair | vector | procedure
  /-- Special forms and transformers: operators that receive their operands unevaluated. -/
  | keyword
  | delayed
  deriving DecidableEq, Repr

namespace Kind

def text : Kind → String
  | unspecified => "Unspecified"
  | nil => "Nil"
  | boolean => "Boolean"
  | char => "Char"
  | string => "String"
  | symbol => "Symbol"
  | int => "Int"
  | fraction => "Fraction"
  | float => "Float"
  | complex => "Complex"
  | nan => "NaN"
  | infinite => "Inf"
  | pair => "Pair"
  | vector => "Vector"
  | procedure => "Procedure"
  | keyword => "Syntax"
  | delayed => "Delayed"

def isNumber : Kind → Bool
  | int | fraction | float | complex | nan | infinite => true
  | _ => false

def isReal (k : Kind) : Bool := k.isNumber && k != complex

def isPair (k : Kind) : Bool := k == pair

def isVector (k : Kind) : Bool := k == vector

def isAny (_ : Kind) : Bool := true

end Kind
end MiniScheme
