/-! Decimal digits of binary floating-point numbers. A positive float is `m · 2^q` for
naturals; the decimals that read back to it form an interval around it, and `shortest` finds
the first decimal grid on which one of the float's two neighbours lies in that interval. All
comparisons are of naturals. -/
namespace MiniScheme.Decimal

/-- The value `digits · 10^exponent`. -/
structure Scientific where
  digits : Nat
  exponent : Int
  deriving DecidableEq, Repr

/-- A fraction of naturals whose denominator is positive. -/
structure Quotient where
  num : Nat
  den : Nat
  deriving DecidableEq, Repr

/-- The numbers that round to one float: the float itself and the two ends of the interval, all
over one denominator. The ends round to the float iff `closed`. -/
structure Interval where
  low : Nat
  value : Nat
  high : Nat
  den : Nat
  closed : Bool
  deriving DecidableEq, Repr

namespace Interval

/-- Whether `q` lies in the interval. -/
def contains (i : Interval) (q : Quotient) : Bool :=
  let scaled := q.num * i.den
  if i.closed then i.low * q.den ≤ scaled && scaled ≤ i.high * q.den
  else i.low * q.den < scaled && scaled < i.high * q.den

/-- The interval of a positive finite float, from the fields of its binary encoding. The gap
below a power of two is half the gap above it. -/
def ofFields (exponent fraction : Nat) : Interval :=
  let mantissa := if exponent = 0 then fraction else fraction + Nat.pow 2 52
  let power := max exponent 1
  let narrow := fraction = 0 ∧ 1 < exponent
  let scale := if 1077 ≤ power then Nat.pow 2 (power - 1077) else 1
  { low := (4 * mantissa - if narrow then 1 else 2) * scale
    value := 4 * mantissa * scale
    high := (4 * mantissa + 2) * scale
    den := if 1077 ≤ power then 1 else Nat.pow 2 (1077 - power)
    closed := mantissa % 2 = 0 }

end Interval

def digitCount (n : Nat) : Nat := (Nat.toDigits 10 n).length

/-- `n · 10^e` as a fraction. -/
def Scientific.toQuotient (s : Scientific) : Quotient :=
  if 0 ≤ s.exponent then ⟨s.digits * Nat.pow 10 s.exponent.toNat, 1⟩
  else ⟨s.digits, Nat.pow 10 (-s.exponent).toNat⟩

/-- The exponent `k` with `10^(k-1) ≤ num/den < 10^k`. -/
def magnitude (num den : Nat) : Int :=
  let guess : Int := (digitCount num : Int) - digitCount den
  let bound := Scientific.toQuotient ⟨1, guess⟩
  if bound.num * den ≤ num * bound.den then guess + 1 else guess

/-- Which of two equally near decimals is taken. -/
inductive Tie where
  | down | up
  deriving DecidableEq, Repr

/-- The neighbours of `i.value` on the grid of spacing `10^exponent`, nearer one first. -/
def neighbours (tie : Tie) (i : Interval) (exponent : Int) : List Scientific :=
  let unit := Scientific.toQuotient ⟨1, exponent⟩
  let num := i.value * unit.den
  let den := i.den * unit.num
  let below := num / den
  let twice := 2 * (num % den)
  let first := twice < den ∨ (twice = den ∧ tie = .down)
  if first then [⟨below, exponent⟩, ⟨below + 1, exponent⟩]
  else [⟨below + 1, exponent⟩, ⟨below, exponent⟩]

/-- Moves trailing zeros of the digits into the exponent, at most `fuel` of them. -/
def Scientific.trim : Nat → Scientific → Scientific
  | 0, s => s
  | fuel + 1, s =>
    if s.digits ≠ 0 ∧ s.digits % 10 = 0 then trim fuel ⟨s.digits / 10, s.exponent + 1⟩ else s

/-- Tries the grids of `count`, `count + 1`, … significant digits. Seventeen digits always tell
two floats apart, so the search ends by then. -/
def search (tie : Tie) (i : Interval) (top : Int) : Nat → Nat → Option Scientific
  | 0, _ => none
  | fuel + 1, count =>
    match (neighbours tie i (top - count)).find? (fun s => i.contains s.toQuotient) with
    | some found => some (found.trim (digitCount found.digits))
    | none => search tie i top fuel (count + 1)

/-- The fewest digits that read back, and of those the nearest to the float. -/
def shortest (tie : Tie) (i : Interval) : Option Scientific :=
  search tie i (magnitude i.value i.den) 17 1

/-- The classes of floating-point numbers that have texts of their own. -/
inductive Shape where
  | nan
  | infinite (negative : Bool)
  | zero (negative : Bool)
  | finite (negative : Bool) (interval : Interval)
  deriving DecidableEq, Repr

/-- Reads the sign, exponent and fraction fields of a float. -/
def Shape.ofFloat (x : Float) : Shape :=
  let bits := x.toBits.toNat
  let negative := bits / Nat.pow 2 63 = 1
  let exponent := bits / Nat.pow 2 52 % Nat.pow 2 11
  let fraction := bits % Nat.pow 2 52
  if exponent = 2047 then
    if fraction = 0 then .infinite negative else .nan
  else if exponent = 0 ∧ fraction = 0 then .zero negative
  else .finite negative (.ofFields exponent fraction)

end MiniScheme.Decimal
