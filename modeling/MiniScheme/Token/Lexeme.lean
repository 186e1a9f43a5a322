import MiniScheme.Error
import MiniScheme.Number.Literal
import MiniScheme.Token.Basic

/-! The pieces a text falls into. Reading a lexeme needs neither the place where it stands nor
what came before it: it looks at the text from its first character on, and answers with the
lexeme and its length, or with a fault and how far from the start the fault lies. -/
namespace MiniScheme

inductive Bracket where
  | round | square
  deriving DecidableEq, Repr

inductive Lexeme where
  /-- A blank or a comment. -/
  | gap
  | opener (bracket : Bracket)
  | closer (bracket : Bracket)
  | quoteMark
  | atom (kind : AtomKind) (text : String)
  deriving DecidableEq, Repr

namespace Lexeme

/-- A fault in a lexeme and its distance from the first character. -/
structure Misfit where
  fault : SyntaxFault
  offset : Nat
  deriving DecidableEq, Repr

/-- A lexeme and the number of its characters. -/
structure Reading where
  lexeme : Lexeme
  size : Nat
  deriving DecidableEq, Repr

abbrev Result := Except Misfit Reading

def isBlank (c : Char) : Bool := c == ' ' || c == '\n' || c == '\t' || c == '\r' || c == '\x0c'

def isOpener (c : Char) : Bool := c == '(' || c == '['

def isCloser (c : Char) : Bool := c == ')' || c == ']'

/-- Words end before these characters. -/
def isSplitter (c : Char) : Bool := isBlank c || isOpener c || isCloser c

/-- Characters of symbols beside letters and digits. -/
def specials : List Char :=
  ['!', '@', '$', '%', '^', '&', '*', '_', '-', '+', '=', ':', '\x27', '/', '?', '.', '>', ',', '<']

def isSymbolChar (c : Char) : Bool := c.isAlphanum || specials.contains c

/-- Characters of numbers beside the digits. -/
def isNumberMark (c : Char) : Bool := c == '.' || Literal.isSign c || c == '/' || c == 'i'

def isQuoteMark (c : Char) : Bool := c == '\x60' || c == '\x27'

/-- Everything up to the next splitter. -/
def word (cs : List Char) : List Char := cs.takeWhile fun c => !isSplitter c

/-- Whether a word ends before `cs`. -/
def atEnd : List Char → Bool
  | [] => true
  | c :: _ => isSplitter c

def here (fault : SyntaxFault) : Result := .error ⟨fault, 0⟩

/-- The shape of a number without its radix mark, in terms of the marks it holds. -/
def isNumberBody (r : Radix) (cs : List Char) : Bool :=
  let dots := cs.count '.'
  let slashes := cs.count '/'
  let imaginary := cs.count 'i'
  cs.any r.isDigit
    && dots ≤ 1 && slashes ≤ 1 && !(0 < dots && 0 < slashes)
    && cs.head? != some '/' && cs.getLast? != some '/'
    && (imaginary == 0 || (imaginary == 1 && cs.getLast? == some 'i'))
    && (if imaginary == 0 then !(cs.drop 1).any Literal.isSign else cs.countP Literal.isSign == 1)

/-- The longest run of digits and number marks. -/
def numberBody (r : Radix) (cs : List Char) : List Char :=
  cs.takeWhile fun c => r.isDigit c || isNumberMark c

def readSymbol (cs : List Char) : Result :=
  let name := cs.takeWhile isSymbolChar
  if atEnd (cs.drop name.length) then .ok ⟨.atom .symbol (.ofList name), name.length⟩
  else here (.invalidSymbol (.ofList (word cs)))

/-- Decimal digits and marks that do not make a number, or run on into other symbol characters,
are a symbol. -/
def readNumber (cs : List Char) : Result :=
  let body := numberBody .decimal cs
  let rest := cs.drop body.length
  if !isNumberBody .decimal body || rest.head?.any isSymbolChar then readSymbol cs
  else if atEnd rest then .ok ⟨.atom .number (.ofList body), body.length⟩
  else here (.invalidNumber (.ofList (word cs)))

/-- A number behind a radix mark of two characters is never taken for a symbol. -/
def readMarkedNumber (r : Radix) (mark cs : List Char) : Result :=
  let body := numberBody r cs
  if isNumberBody r body && atEnd (cs.drop body.length) then
    .ok ⟨.atom .number (.ofList (mark ++ body)), mark.length + body.length⟩
  else here (.invalidNumber (.ofList (mark ++ word cs)))

def readDot (cs : List Char) : Result :=
  match cs with
  | [] => here (.illegalCharacter '.')
  | c :: _ =>
    if c.isDigit then readNumber ('.' :: cs)
    else if isSplitter c then .ok ⟨.atom .dot ".", 1⟩
    else if isSymbolChar c then readSymbol ('.' :: cs)
    else here (.invalidSymbol (.ofList (word ('.' :: cs))))

/-- Puts a character in front of a partial string, which `width` characters of text spell. -/
def extend (c : Char) (width : Nat) :
    Except (List Char) (List Char × Nat) → Except (List Char) (List Char × Nat)
  | .ok (text, size) => .ok (c :: text, size + width)
  | .error text => .error (c :: text)

/-- The text of a string and the characters it takes up to and with the closing quote. Only the
quote and the backslash may be escaped. The error is what had been read. -/
def stringBody : List Char → Except (List Char) (List Char × Nat)
  | [] => .error []
  | '"' :: _ => .ok ([], 1)
  | '\\' :: [] => .error []
  | '\\' :: c :: cs => if c == '\\' || c == '"' then extend c 2 (stringBody cs) else .error ['\\', c]
  | c :: cs => extend c 1 (stringBody cs)

/-- What has to follow a literal for it to stand. -/
def closed (lexeme : Lexeme) (size : Nat) (rest : List Char) : Result :=
  match rest with
  | [] => .ok ⟨lexeme, size⟩
  | c :: _ => if isSplitter c then .ok ⟨lexeme, size⟩ else .error ⟨.illegalCharacter c, size⟩

def readString (cs : List Char) : Result :=
  match stringBody cs with
  | .error text => here (.illegalString (.ofList text))
  | .ok (text, size) => closed (.atom .string (.ofList text)) (size + 1) (cs.drop size)

def readBoolean (c : Char) (cs : List Char) : Result :=
  if atEnd cs then .ok ⟨.atom .boolean (.ofList ['#', c]), 2⟩
  else here (.invalidSymbol (.ofList ('#' :: c :: word cs)))

def readChar : List Char → Result
  | [] => here (.invalidSymbol "#\\")
  | c :: cs => closed (.atom .char c.toString) 3 cs

def readSharp (cs : List Char) : Result :=
  match cs with
  | [] => here (.illegalCharacter '#')
  | c :: rest =>
    if c == 't' || c == 'f' then readBoolean c rest
    else if c == '\\' then readChar rest
    else if isOpener c then .ok ⟨.atom .sharp "#", 1⟩
    else match Radix.ofMark? c with
      | some r => readMarkedNumber r ['#', c] rest
      | none => here (.invalidSharp c)

/-- A comment runs to the end of its line and leaves the line feed. -/
def comment (cs : List Char) : Result :=
  .ok ⟨.gap, 1 + (cs.takeWhile (· != '\n')).length⟩

/-- The lexeme that starts with `c` when `cs` follows. -/
def read (c : Char) (cs : List Char) : Result :=
  if isBlank c then .ok ⟨.gap, 1⟩
  else if c == ';' then comment cs
  else if c == '(' then .ok ⟨.opener .round, 1⟩
  else if c == '[' then .ok ⟨.opener .square, 1⟩
  else if c == ')' then .ok ⟨.closer .round, 1⟩
  else if c == ']' then .ok ⟨.closer .square, 1⟩
  else if c == '.' then readDot cs
  else if Literal.isSign c || c.isDigit then readNumber (c :: cs)
  else if c == '"' then readString cs
  else if c == '#' then readSharp cs
  else if isQuoteMark c then .ok ⟨.quoteMark, 1⟩
  else if isSymbolChar c then readSymbol (c :: cs)
  else here (.illegalCharacter c)

end Lexeme
end MiniScheme
