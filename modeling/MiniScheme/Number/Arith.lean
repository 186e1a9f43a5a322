import MiniScheme.Number.Basic

/-! Arithmetic and order. An operation on exact numbers is tried on words, then on ratios, and
falls back to floats when a step does not fit in a word. -/
namespace MiniScheme.Number

/-- One operation on each level of the tower. -/
structure Operation where
  onWords : Int → Int → Option Int
  onRatios : Ratio → Ratio → Option Ratio
  onFloats : Float → Float → Float

def complexArithmetic : RuntimeFault := .unimplemented "complex arithmetic"

/-- The exact result if both numbers are exact and every step fits. -/
def exactResult? (op : Operation) (a b : Number) : Option Number := do
  let x ← a.toRatio?
  let y ← b.toRatio?
  ofRatio <$> op.onRatios x y

def ratioOrFloat (op : Operation) (a b : Number) : Except RuntimeFault Number :=
  match exactResult? op a b with
  | some n => .ok n
  | none =>
    match a.toFloat?, b.toFloat? with
    | some x, some y => .ok (ofFloat (op.onFloats x y))
    | _, _ => .error complexArithmetic

def apply (op : Operation) (a b : Number) : Except RuntimeFault Number :=
  match a, b with
  | complex _ _, _ | _, complex _ _ => .error complexArithmetic
  | nan, _ | _, nan => .ok nan
  | integer x, integer y =>
    match op.onWords x y with
    | some z => .ok (integer z)
    | none => ratioOrFloat op a b
  | _, _ => ratioOrFloat op a b

def addition : Operation := ⟨fun a b => word? (a + b), Ratio.add?, (· + ·)⟩

def subtraction : Operation := ⟨fun a b => word? (a - b), Ratio.sub?, (· - ·)⟩

def multiplication : Operation := ⟨fun a b => word? (a * b), Ratio.mul?, (· * ·)⟩

/-- On words only a quotient without remainder is a result. -/
def division : Operation :=
  ⟨fun a b => if b ≠ 0 ∧ a % b = 0 then word? (a / b) else none, Ratio.div?, (· / ·)⟩

def add : Number → Number → Except RuntimeFault Number := apply addition

def sub : Number → Number → Except RuntimeFault Number := apply subtraction

def mul : Number → Number → Except RuntimeFault Number := apply multiplication

/-- What division by exact zero gives. -/
def overZero : Number → Except RuntimeFault Number
  | complex _ _ => .error complexArithmetic
  | n => .ok (if n.isZero || n == nan then nan else infinite)

def div (a b : Number) : Except RuntimeFault Number :=
  if b.isExact && b.isZero then overZero a else apply division a b

/-- The order of two floats, if neither is undefined. -/
def compareFloats (x y : Float) : Option Ordering :=
  if x < y then some .lt else if x == y then some .eq else if y < x then some .gt else none

/-- The order of the reals. Exact numbers compare exactly, others as floats. -/
def compare (a b : Number) : Option Ordering :=
  match a, b with
  | complex _ _, _ | _, complex _ _ | nan, _ | _, nan => none
  | infinite, infinite => some .eq
  | _, _ =>
    match a.toRatio?, b.toRatio? with
    | some x, some y => some (x.compare y)
    | _, _ => do compareFloats (← a.toFloat?) (← b.toFloat?)

/-- Same exactness and same value. -/
def eqv : Number → Number → Bool
  | integer a, integer b => a == b
  | fraction a, fraction b => a.compare b == .eq
  | float a, float b => a == b
  | complex re im, complex re' im' => re == re' && im == im'
  | infinite, infinite => true
  | _, _ => false

/-- Same value, whatever its exactness. -/
def same (a b : Number) : Bool :=
  match a, b with
  | complex re im, complex re' im' => re == re' && im == im'
  | _, _ => a.compare b == some .eq

end MiniScheme.Number
