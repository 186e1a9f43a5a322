import MiniScheme.Error
import MiniScheme.Number.Ratio

/-! The number tower: exact words and ratios, floats, one unsigned infinity, one undefined
number, and complex literals on which no arithmetic is defined. -/
namespace MiniScheme

inductive Number where
  | integer (value : Int)
  | fraction (value : Ratio)
  | float (value : Float)
  | complex (re im : Float)
  | nan
  | infinite
  deriving DecidableEq

namespace Number

def kind : Number → Kind
  | integer _ => .int
  | fraction _ => .fraction
  | float _ => .float
  | complex _ _ => .complex
  | nan => .nan
  | infinite => .infinite

/-- A ratio with denominator one is an integer. -/
def ofRatio (r : Ratio) : Number := if r.den = 1 then integer r.num else fraction r

/-- The exact quotient of two words. A zero divisor gives infinity, or no number for `0/0`. -/
def quotient (num den : Int) : Number :=
  if zero : den = 0 then (if num = 0 then nan else infinite) else ofRatio (Ratio.make num den zero)

/-- Floats are finite: other floating-point values have numbers of their own. -/
def ofFloat (x : Float) : Number :=
  if x.isNaN then nan else if x.isInf then infinite else float x

def isExact : Number → Bool
  | integer _ | fraction _ => true
  | _ => false

def isZero : Number → Bool
  | integer i => i == 0
  | fraction r => r.num == 0
  | float x => x == 0.0
  | complex re im => re == 0.0 && im == 0.0
  | nan | infinite => false

def floatNaN : Float := 0.0 / 0.0

def floatInfinity : Float := 1.0 / 0.0

/-- The nearest float to a real number. -/
def toFloat? : Number → Option Float
  | integer i => some (Float.ofInt i)
  | fraction r => some (Float.ofInt r.num / Float.ofInt r.den)
  | float x => some x
  | nan => some floatNaN
  | infinite => some floatInfinity
  | complex _ _ => none

def toRatio? : Number → Option Ratio
  | integer i => some (.ofInt i)
  | fraction r => some r
  | _ => none

/-- The value of an exact number. -/
def toRat? (n : Number) : Option Rat := n.toRatio?.map Ratio.toRat

/-- Each value has one representation: a fraction is in lowest terms and no integer, a float is
finite. -/
def Canonical : Number → Prop
  | fraction r => 2 ≤ r.den ∧ r.num.natAbs.Coprime r.den
  | float x => x.isNaN = false ∧ x.isInf = false
  | _ => True

end Number
end MiniScheme
