/-! Ratios of 64-bit words. Every step of an operation has to fit in a signed word, and the
operation has no result as soon as one does not. -/
namespace MiniScheme

/-- The integers of a signed 64-bit word. -/
def InWord (i : Int) : Prop := -9223372036854775808 ≤ i ∧ i ≤ 9223372036854775807

instance (i : Int) : Decidable (InWord i) := inferInstanceAs (Decidable (_ ∧ _))

def word? (i : Int) : Option Int := if InWord i then some i else none

structure Ratio where
  num : Int
  den : Nat
  pos : 0 < den
  deriving DecidableEq, Repr

namespace Ratio

def ofInt (i : Int) : Ratio := ⟨i, 1, Nat.one_pos⟩

theorem reduced_pos {den common : Nat} (divides : common ∣ den) (pos : 0 < den) :
    0 < den / common :=
  Nat.div_pos (Nat.le_of_dvd pos divides) (Nat.pos_of_dvd_of_pos divides pos)

/-- The ratio `num / den` in lowest terms with a positive denominator. -/
def make (num den : Int) (nonzero : den ≠ 0) : Ratio :=
  let common := Int.gcd num den
  ⟨den.sign * num / common, den.natAbs / common,
    reduced_pos (Int.gcd_dvd_natAbs_right num den) (Int.natAbs_pos.mpr nonzero)⟩

def toRat (r : Ratio) : Rat := mkRat r.num r.den

/-- The least common denominator. -/
def common (a b : Ratio) : Nat := a.den / Nat.gcd a.den b.den * b.den

theorem common_pos (a b : Ratio) : 0 < a.common b :=
  Nat.mul_pos (reduced_pos (Nat.gcd_dvd_left ..) a.pos) b.pos

/-- Sum or difference over the least common denominator. -/
def combine? (op : Int → Int → Int) (a b : Ratio) : Option Ratio := do
  let lcm ← word? (a.common b)
  let left ← word? (lcm / a.den * a.num)
  let right ← word? (lcm / b.den * b.num)
  let num ← word? (op left right)
  return make num (a.common b) (Int.natCast_ne_zero.mpr (Nat.ne_of_gt (a.common_pos b)))

def add? : Ratio → Ratio → Option Ratio := combine? (· + ·)

def sub? : Ratio → Ratio → Option Ratio := combine? (· - ·)

/-- Cross-cancels before multiplying, so the products are already in lowest terms. -/
def mul? (a b : Ratio) : Option Ratio := do
  let outer := Int.gcd a.num b.den
  let inner := Int.gcd a.den b.num
  let num ← word? (a.num / outer * (b.num / inner))
  let _ ← word? (a.den / inner * (b.den / outer) : Nat)
  return ⟨num, a.den / inner * (b.den / outer),
    Nat.mul_pos (reduced_pos (Int.gcd_dvd_natAbs_left ..) a.pos)
      (reduced_pos (Int.gcd_dvd_natAbs_right ..) b.pos)⟩

/-- Numerator and denominator of a quotient before reduction. Equal denominators or equal
numerators cancel as they stand. -/
def quotientParts? (a b : Ratio) : Option (Int × Int) :=
  if a.den = b.den then some (a.num, b.num)
  else if a.num = b.num then some (b.den, a.den)
  else do
    let nums := Int.gcd a.num b.num
    let dens := Nat.gcd a.den b.den
    let num ← word? (a.num / nums * ((b.den : Int) / dens))
    let den ← word? ((a.den : Int) / dens * (b.num / nums))
    return (num, den)

/-- A ratio whose numerator and denominator are given, if the denominator is positive. -/
def ofParts? (num den : Int) : Option Ratio :=
  if pos : 0 < den then some ⟨num, den.toNat, Int.lt_toNat.mpr pos⟩ else none

/-- Quotient by a ratio other than zero. Only a negative denominator makes signs change, and
then both signs have to fit. -/
def div? (a b : Ratio) : Option Ratio := do
  let (num, den) ← quotientParts? a b
  if num = 0 then return ofInt 0
  if num = den then return ofInt 1
  let common : Int := Int.gcd num den
  let num := num / common
  let den := den / common
  if den < 0 then
    let num ← word? (-num)
    let den ← word? (-den)
    ofParts? num den
  else ofParts? num den

/-- The order of the rational numbers. -/
def compare (a b : Ratio) : Ordering := Ord.compare (a.num * b.den) (b.num * a.den)

end Ratio
end MiniScheme
