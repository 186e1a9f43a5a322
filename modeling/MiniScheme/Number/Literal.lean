import MiniScheme.Number.Basic

/-! Number literals: an optional radix mark, then a real or, with a trailing `i` in a radix
other than sixteen, a complex number. -/
namespace MiniScheme

inductive Radix where
  | binary | octal | decimal | hexadecimal
  deriving DecidableEq, Repr

namespace Radix

def base : Radix → Nat
  | binary => 2
  | octal => 8
  | decimal => 10
  | hexadecimal => 16

/-- The radix named by the letter of a radix mark. -/
def ofMark? : Char → Option Radix
  | 'b' => some binary
  | 'o' => some octal
  | 'd' => some decimal
  | 'x' => some hexadecimal
  | _ => none

/-- The value of a digit or letter, in any radix up to sixteen. -/
def digitValue? (c : Char) : Option Nat :=
  if c.isDigit then some (c.toNat - '0'.toNat)
  else if 'a' ≤ c ∧ c ≤ 'f' then some (c.toNat - 'a'.toNat + 10)
  else if 'A' ≤ c ∧ c ≤ 'F' then some (c.toNat - 'A'.toNat + 10)
  else none

def digit? (r : Radix) (c : Char) : Option Nat := do
  let d ← digitValue? c
  if d < r.base then some d else none

def isDigit (r : Radix) (c : Char) : Bool := (r.digit? c).isSome

end Radix

namespace Literal

def digits? (r : Radix) (cs : List Char) : Option (List Nat) := cs.mapM r.digit?

/-- Splits off one leading sign; the flag is set for a minus. -/
def sign : List Char → Bool × List Char
  | '-' :: cs => (true, cs)
  | '+' :: cs => (false, cs)
  | cs => (false, cs)

def positional (base : Nat) (digits : List Nat) : Nat := digits.foldl (fun n d => n * base + d) 0

/-- An optional sign and at least one digit. The value is not bounded. -/
def integer? (r : Radix) (cs : List Char) : Option Int := do
  let (negative, body) := sign cs
  let digits ← digits? r body
  if digits.isEmpty then none
  else
    let n : Int := positional r.base digits
    some (if negative then -n else n)

/-- An integer literal that has to fit in a word. -/
def wordLiteral? (r : Radix) (cs : List Char) : Option Int := integer? r cs >>= word?

def negateIf (negative : Bool) (x : Float) : Float := if negative then -x else x

/-- Digits accumulated from the left in floating point, for literals that fit in no word. -/
def wide? (r : Radix) (cs : List Char) : Option Float := do
  let (negative, body) := sign cs
  let digits ← digits? r body
  let size := digits.foldl (fun x d => x * Float.ofNat r.base + Float.ofNat d) 0.0
  some (negateIf negative size)

/-- Text before and after the first `c`. -/
def splitAt? (c : Char) (cs : List Char) : Option (List Char × List Char) :=
  match cs.span (· != c) with
  | (_, []) => none
  | (before, _ :: rest) => some (before, rest)

/-- The exponent behind a decimal: absent, or a mark, an optional sign and digits. -/
def exponent? : List Char → Option Int
  | [] => some 0
  | c :: cs => if c = 'e' ∨ c = 'E' then integer? .decimal cs else none

/-- A decimal with a point and at least one digit, rounded to the nearest float. -/
def decimal? (cs : List Char) : Option Float := do
  let (negative, body) := sign cs
  let (whole, rest) ← splitAt? '.' body
  let part := rest.takeWhile Char.isDigit
  let digits ← digits? .decimal (whole ++ part)
  let exponent ← exponent? (rest.dropWhile Char.isDigit)
  if digits.isEmpty then none
  else
    let scale := exponent - part.length
    let size := Float.ofScientific (positional 10 digits) (scale < 0) scale.natAbs
    some (negateIf negative size)

/-- A point in another radix: the whole part is a word, the rest is accumulated from the right
in floating point. -/
def fixedPoint? (r : Radix) (cs : List Char) : Option Float := do
  let (negative, body) := sign cs
  let (whole, part) ← splitAt? '.' body
  let int ← if whole.isEmpty then some 0 else wordLiteral? r whole
  let digits ← digits? r part
  let frac := digits.foldr (fun d x => (x + Float.ofNat d) / Float.ofNat r.base) 0.0
  some (negateIf negative (Float.ofInt int + frac))

def real? (r : Radix) (cs : List Char) : Option Number :=
  match splitAt? '/' cs with
  | some (num, den) => do return .quotient (← wordLiteral? r num) (← wordLiteral? r den)
  | none =>
    if cs.contains '.' then
      Number.ofFloat <$> if r = .decimal then decimal? cs else fixedPoint? r cs
    else do
      let n ← integer? r cs
      if InWord n then some (.integer n) else Number.ofFloat <$> wide? r cs

def isSign (c : Char) : Bool := c == '+' || c == '-'

/-- Splits before the last sign that is not the first character. -/
def splitSign? (cs : List Char) : Option (List Char × List Char) :=
  match cs with
  | [] => none
  | first :: rest =>
    match rest.reverse.span (fun c => !isSign c) with
    | (_, []) => none
    | (imag, s :: real) => some (first :: real.reverse, s :: imag.reverse)

/-- A bare sign, or nothing, stands for a unit imaginary part. -/
def imaginary? (r : Radix) (cs : List Char) : Option Float :=
  match cs with
  | [] | ['+'] => some 1.0
  | ['-'] => some (-1.0)
  | _ => real? r cs >>= Number.toFloat?

/-- A complex literal without its trailing `i`. -/
def complex? (r : Radix) (cs : List Char) : Option Number :=
  match splitSign? cs with
  | some (real, imag) => do
    return .complex (← real? r real >>= Number.toFloat?) (← imaginary? r imag)
  | none => do return .complex 0.0 (← imaginary? r cs)

/-- The body of a literal in a known radix. Sixteen has no complex literals. -/
def body? (r : Radix) (cs : List Char) : Option Number :=
  if r ≠ .hexadecimal ∧ cs.getLast? = some 'i' then complex? r cs.dropLast else real? r cs

/-- The radix mark of a literal, decimal without one, and what follows it. -/
def mark : List Char → Radix × List Char
  | '#' :: c :: cs =>
    match Radix.ofMark? c with
    | some r => (r, cs)
    | none => (.decimal, '#' :: c :: cs)
  | cs => (.decimal, cs)

def read? (cs : List Char) : Option Number := body? (mark cs).1 (mark cs).2

end Literal

/-- The number a literal denotes. -/
def Number.parse? (text : String) : Option Number := Literal.read? text.toList

end MiniScheme
