import Mathlib
import MiniScheme.Number.Literal

/-! Floats that are accumulated from digits. Multiplying by the base of a radix and adding a digit
does not leave the floats without a minus sign, so digits of any number make a finite float or
infinity, and never an undefined number. -/
namespace MiniScheme

namespace Literal

open Float.Model (Format UnpackedFloat)
open Float.Model.UnpackedFloat

/-- Zero, a finite number or infinity, without a minus sign. -/
def isPlus : UnpackedFloat → Bool
  | .zero .positive | .infinity .positive | .finite .positive _ _ _ => true
  | _ => false

/-! Packing a float into its bits keeps the sign and makes no number undefined. -/

/-- The bits of the two parts do not say that the number is undefined. -/
def Defined (spec : Format) (exponent : BitVec spec.exponentBits)
    (mantissa : BitVec spec.mantissaBitsWithoutImplicit) : Prop :=
  exponent = -BitVec.ofNat _ 1 → mantissa = BitVec.ofNat _ 0

def signOf : UnpackedFloat → Sign
  | .zero sign | .infinity sign | .finite sign _ _ _ => sign
  | .notANumber => .positive

variable {spec : Format} {u v : UnpackedFloat}

theorem zero_ne_allOnes : BitVec.ofNat spec.exponentBits 0 ≠ -BitVec.ofNat _ 1 := by
  simp [Nat.pos_iff_ne_zero.mp spec.he]

theorem pack_eq_components (spec : Format) (defined : u.isNaN = false) : ∃ exponent mantissa,
    pack spec u = packComponents spec (signOf u) exponent mantissa ∧ Defined spec exponent mantissa := by
  cases u with
  | notANumber => contradiction
  | infinity sign => exact ⟨_,_,rfl,fun _ => rfl⟩
  | zero sign => exact ⟨_,_,rfl,fun same => absurd same zero_ne_allOnes⟩
  | finite sign m e pos =>
    rw [pack]
    split
    next => exact ⟨_,_,rfl,fun _ => rfl⟩
    next small =>
      split
      next =>
        refine ⟨_,_,rfl,fun same => ?_⟩
        -- an exponent that fits is not made of ones only
        have value := congrArg BitVec.toNat same
        rw [BitVec.toNat_ofNat,BitVec.neg_one_eq_allOnes,BitVec.toNat_allOnes,
          Nat.mod_eq_of_lt (by omega)] at value
        omega
      next => exact ⟨_,_,rfl,fun same => absurd same zero_ne_allOnes⟩

theorem unpack_packComponents {sign : Sign} {exponent : BitVec spec.exponentBits}
    {mantissa : BitVec spec.mantissaBitsWithoutImplicit} (defined : Defined spec exponent mantissa) :
    (unpack spec (packComponents spec sign exponent mantissa)).isNaN = false ∧
      signOf (unpack spec (packComponents spec sign exponent mantissa)) = sign := by
  unfold unpack
  simp only [unpackMantissa_packComponents,unpackExponent_packComponents,unpackSign_packComponents,
    Sign.ofBitVec_toBitVec]
  split
  next ones =>
    rw [if_pos (defined ones)]
    exact ⟨rfl,rfl⟩
  next =>
    split
    next =>
      split
      next => exact ⟨rfl,rfl⟩
      next => exact ⟨rfl,rfl⟩
    next => exact ⟨rfl,rfl⟩

theorem unpack_pack (spec : Format) (defined : u.isNaN = false) :
    (unpack spec (pack spec u)).isNaN = false ∧ signOf (unpack spec (pack spec u)) = signOf u := by
  obtain ⟨exponent,mantissa,packed,kept⟩ := pack_eq_components spec defined
  rw [packed]
  exact unpack_packComponents kept

theorem isPlus_iff : isPlus u = true ↔ u.isNaN = false ∧ signOf u = .positive := by
  cases u with
  | notANumber => simp [isPlus,isNaN]
  | zero sign | infinity sign | finite sign => cases sign <;> simp [isPlus,isNaN,signOf]

theorem isPlus_cases (plus : isPlus u = true) : u = .zero .positive ∨ u = .infinity .positive ∨
    ∃ m e pos, u = .finite .positive m e pos := by
  unfold isPlus at plus
  split at plus
  next => exact .inl rfl
  next => exact .inr (.inl rfl)
  next m e pos => exact .inr (.inr ⟨m,e,pos,rfl⟩)
  next => contradiction

theorem isPlus_unpack_pack (spec : Format) (plus : isPlus u = true) :
    isPlus (unpack spec (pack spec u)) = true := by
  obtain ⟨defined,sign⟩ := isPlus_iff.mp plus
  obtain ⟨still,kept⟩ := unpack_pack spec defined
  exact isPlus_iff.mpr ⟨still,kept.trans sign⟩

/-! Sums and products. -/

theorem isPlus_roundWithAccuracy (m : Nat) (e : Int) (accuracy : Accuracy) :
    isPlus (roundWithAccuracy spec .positive m e accuracy) = true := by
  unfold roundWithAccuracy
  dsimp only
  split <;> rfl

theorem isPlus_normalize {n : Int} (e : Int) (nonneg : 0 ≤ n) :
    isPlus (UnpackedFloat.normalize spec n e .positive) = true := by
  unfold UnpackedFloat.normalize
  split
  next less =>
    rw [Int.compare_eq_lt] at less
    omega
  next => rfl
  next => exact isPlus_roundWithAccuracy ..

/-- Only infinity times zero has no value, and neither is a finite number other than zero. -/
theorem isPlus_mul (plus : isPlus u = true) (m : Nat) (e : Int) (pos : 0 < m) :
    isPlus (mul spec u (.finite .positive m e pos)) = true := by
  obtain rfl | rfl | ⟨m',e',pos',rfl⟩ := isPlus_cases plus
  · rfl
  · rfl
  · exact isPlus_roundWithAccuracy ..

/-- Only infinities of different signs have no sum. -/
theorem isPlus_add (left : isPlus u = true) (right : isPlus v = true) :
    isPlus (add spec u v) = true := by
  obtain rfl | rfl | ⟨m,e,pos,rfl⟩ := isPlus_cases left
  · obtain rfl | rfl | ⟨m',e',pos',rfl⟩ := isPlus_cases right <;> rfl
  · obtain rfl | rfl | ⟨m',e',pos',rfl⟩ := isPlus_cases right <;> rfl
  · obtain rfl | rfl | ⟨m',e',pos',rfl⟩ := isPlus_cases right
    · rfl
    · rfl
    · exact isPlus_normalize _ (Int.add_nonneg (Int.natCast_nonneg _) (Int.natCast_nonneg _))

/-! Digits. -/

def Plus (x : Float) : Prop := isPlus x.toModel.unpack = true

theorem zero_plus : Plus 0.0 := by
  have checked : isPlus (0.0 : Float).toModel.unpack = true := by decide +kernel
  exact checked

theorem base_finite (r : Radix) :
    ∃ m e pos, (Float.ofNat r.base).toModel.unpack = .finite .positive m e pos := by
  cases r <;> exact ⟨_,_,_,rfl⟩

theorem digit_plus {d : Nat} (small : d < 16) : Plus (Float.ofNat d) := by
  have checked : ∀ d : Fin 16, isPlus (Float.ofNat d).toModel.unpack = true := by decide +kernel
  exact checked ⟨d,small⟩

/-- One step of accumulating digits. -/
theorem Plus.step {x : Float} (plus : Plus x) (r : Radix) {d : Nat} (small : d < 16) :
    Plus (x * Float.ofNat r.base + Float.ofNat d) := by
  obtain ⟨m,e,pos,base⟩ := base_finite r
  have scaled : isPlus (mul .binary64 x.toModel.unpack (Float.ofNat r.base).toModel.unpack) = true := by
    rw [base]
    exact isPlus_mul plus m e pos
  have product : Plus (x * Float.ofNat r.base) := isPlus_unpack_pack _ scaled
  exact isPlus_unpack_pack _ (isPlus_add product (digit_plus small))

theorem Plus.accumulate {x : Float} (plus : Plus x) (r : Radix) {digits : List Nat}
    (small : ∀ d ∈ digits, d < 16) :
    Plus (digits.foldl (fun x d => x * Float.ofNat r.base + Float.ofNat d) x) := by
  induction digits generalizing x with
  | nil => exact plus
  | cons d digits ih =>
    obtain ⟨first,rest⟩ := List.forall_mem_cons.mp small
    exact ih (plus.step r first) rest

/-- A sign in front changes nothing about whether the number is defined. -/
theorem Plus.negateIf_defined {x : Float} (plus : Plus x) (negative : Bool) :
    (negateIf negative x).isNaN = false := by
  have defined : x.toModel.unpack.isNaN = false := (isPlus_iff.mp plus).1
  cases negative with
  | false => exact defined
  | true =>
    have turned : x.toModel.unpack.neg.isNaN = false := by
      revert defined
      cases x.toModel.unpack <;> simp [neg,isNaN]
    exact (unpack_pack _ turned).1

theorem digits?_small {r : Radix} {cs : List Char} {digits : List Nat}
    (read : digits? r cs = some digits) : ∀ d ∈ digits, d < 16 := by
  have bound {c : Char} {d : Nat} (digit : r.digit? c = some d) : d < 16 := by
    simp only [Radix.digit?,Option.bind_eq_bind,Option.bind_eq_some_iff] at digit
    obtain ⟨n,-,small⟩ := digit
    split at small
    next less =>
      cases small
      cases r <;> simp only [Radix.base] at less <;> omega
    next => contradiction
  induction cs generalizing digits with
  | nil =>
    cases read
    simp
  | cons c cs ih =>
    simp only [digits?,List.mapM_cons,Option.bind_eq_bind,Option.bind_eq_some_iff] at read
    obtain ⟨d,first,rest,tail,made⟩ := read
    cases made
    exact List.forall_mem_cons.mpr ⟨bound first,ih tail⟩

/-- A number too wide for a word is inexact and defined. -/
theorem wide?_inexact {r : Radix} {cs : List Char} {x : Float} (read : wide? r cs = some x) :
    Number.ofFloat x = .float x ∨ Number.ofFloat x = .infinite := by
  simp only [wide?,Option.bind_eq_bind,Option.bind_eq_some_iff] at read
  obtain ⟨digits,found,made⟩ := read
  cases made
  have plus := zero_plus.accumulate r (digits?_small found)
  have defined := plus.negateIf_defined (sign cs).1
  rw [Number.ofFloat,defined]
  split
  · contradiction
  · split
    · exact .inr rfl
    · exact .inl rfl

end Literal
end MiniScheme
