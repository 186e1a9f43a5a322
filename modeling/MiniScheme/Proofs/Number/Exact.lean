import Mathlib.Data.Rat.Lemmas
import Mathlib.Data.Int.Cast.Field
import Mathlib.Data.Nat.Cast.Field
import Mathlib.Algebra.Order.Ring.Rat
import Mathlib.Tactic.FieldSimp
import Mathlib.Tactic.Ring
import MiniScheme.Eval.Primitive

/-! Exact arithmetic against the rational numbers. Words, ratios and floats are tried in turn, so
the question is what an exact answer says about the operands: they were exact too, and the answer
is their rational sum, difference, product or quotient. Nothing is assumed of floats. -/
namespace MiniScheme

theorem word?_eq_some {i j : Int} (fits : word? i = some j) : j = i := by
  unfold word? at fits
  split at fits
  · exact (Option.some.inj fits).symm
  · contradiction

namespace Ratio

theorem toRat_eq_div (r : Ratio) : r.toRat = r.num / r.den := Rat.mkRat_eq_div ..

theorem den_ne_zero (r : Ratio) : (r.den : ℚ) ≠ 0 := Nat.cast_ne_zero.mpr r.pos.ne'

theorem toRat_ne_zero {r : Ratio} (nonzero : r.toRat ≠ 0) : (r.num : ℚ) ≠ 0 := by
  intro zero
  exact nonzero (by rw [toRat_eq_div,zero,zero_div])

@[simp] theorem toRat_ofInt (i : Int) : (ofInt i).toRat = i := by
  simp [toRat_eq_div,ofInt]

theorem toRat_make (num den : Int) (nonzero : den ≠ 0) :
    (make num den nonzero).toRat = num / den := by
  have common : ((Int.gcd num den : Int) : ℚ) ≠ 0 := by
    exact_mod_cast (Int.gcd_pos_of_ne_zero_right num nonzero).ne'
  have sign : (den.sign : ℚ) ≠ 0 := by exact_mod_cast mt Int.sign_eq_zero_iff_zero.mp nonzero
  have above : ((den.sign * num / Int.gcd num den : Int) : ℚ) = den.sign * num / (Int.gcd num den : Int) := by
    rw [Int.cast_div (Dvd.dvd.mul_left (Int.gcd_dvd_left num den) _) common,Int.cast_mul]
  have below : ((den.natAbs / Int.gcd num den : Nat) : ℚ) = den.sign * den / (Int.gcd num den : Int) := by
    rw [Nat.cast_div (Int.gcd_dvd_natAbs_right num den) (by exact_mod_cast common)]
    rw [Nat.cast_natAbs,← Int.sign_mul_self_eq_abs,Int.cast_mul,Int.cast_natCast]
  rw [toRat_eq_div]
  simp only [make]
  rw [above,below]
  have bottom : (den : ℚ) ≠ 0 := by exact_mod_cast nonzero
  field_simp

theorem common_divides (a b : Ratio) : a.den ∣ a.common b ∧ b.den ∣ a.common b := by
  refine ⟨?_,Dvd.intro_left _ rfl⟩
  rw [common,Nat.div_mul_right_comm (Nat.gcd_dvd_left ..)]
  exact Dvd.intro _ (Nat.mul_div_assoc _ (Nat.gcd_dvd_right ..)).symm

/-- Widening a ratio to a multiple of its denominator keeps its value. -/
theorem widened {r : Ratio} {den : Nat} (pos : 0 < den) (divides : r.den ∣ den) :
    (((den : Int) / r.den * r.num : Int) : ℚ) / den = r.toRat := by
  have quotient : (((den : Int) / r.den : Int) : ℚ) = den / r.den := by
    rw [Int.cast_div (by exact_mod_cast divides) (by exact_mod_cast r.pos.ne')]
    simp
  have wide : (den : ℚ) ≠ 0 := Nat.cast_ne_zero.mpr pos.ne'
  have narrow := r.den_ne_zero
  rw [Int.cast_mul,quotient,toRat_eq_div]
  field_simp

/-- An operation on numerators that distributes over a common denominator. -/
theorem combine?_toRat {op : Int → Int → Int} {meaning : ℚ → ℚ → ℚ}
    (distributes : ∀ (l r : Int) (d : ℚ), ((op l r : Int) : ℚ) / d = meaning (l / d) (r / d))
    {a b r : Ratio} (result : combine? op a b = some r) :
    r.toRat = meaning a.toRat b.toRat := by
  simp only [combine?,Option.bind_eq_bind,Option.bind_eq_some_iff] at result
  obtain ⟨lcm,fits,left,leftFits,right,rightFits,num,numFits,made⟩ := result
  have pos := a.common_pos b
  obtain ⟨leftDivides,rightDivides⟩ := a.common_divides b
  cases word?_eq_some fits
  cases word?_eq_some leftFits
  cases word?_eq_some rightFits
  cases word?_eq_some numFits
  cases made
  rw [toRat_make,distributes,Int.cast_natCast,widened pos leftDivides,widened pos rightDivides]

theorem add?_toRat {a b r : Ratio} (result : a.add? b = some r) : r.toRat = a.toRat + b.toRat :=
  combine?_toRat (fun l r d => by rw [Int.cast_add,add_div]) result

theorem sub?_toRat {a b r : Ratio} (result : a.sub? b = some r) : r.toRat = a.toRat - b.toRat :=
  combine?_toRat (fun l r d => by rw [Int.cast_sub,sub_div]) result

theorem cast_reduced {i : Int} {g : Nat} (divides : (g : Int) ∣ i) (pos : 0 < g) :
    ((i / g : Int) : ℚ) = i / g := by
  rw [Int.cast_div divides (by exact_mod_cast pos.ne'),Int.cast_natCast]

theorem product_pos (a b : Ratio) :
    0 < a.den / Int.gcd a.den b.num * (b.den / Int.gcd a.num b.den) :=
  Nat.mul_pos (reduced_pos (Int.gcd_dvd_natAbs_left ..) a.pos)
    (reduced_pos (Int.gcd_dvd_natAbs_right ..) b.pos)

/-- The product of two ratios, cancelled crosswise, whatever its size. -/
def product (a b : Ratio) : Ratio :=
  ⟨a.num / Int.gcd a.num b.den * (b.num / Int.gcd a.den b.num),
    a.den / Int.gcd a.den b.num * (b.den / Int.gcd a.num b.den),product_pos a b⟩

theorem mul?_eq (a b : Ratio) : a.mul? b =
    if InWord (a.product b).num ∧ InWord (a.product b).den then some (a.product b) else none := by
  have steps : a.mul? b = (word? (a.product b).num).bind fun num =>
      (word? (a.product b).den).bind fun _ => some ⟨num,(a.product b).den,(a.product b).pos⟩ := rfl
  rw [steps,word?,word?]
  by_cases top : InWord (a.product b).num <;> by_cases bottom : InWord (a.product b).den <;>
    simp [top,bottom]

theorem toRat_product (a b : Ratio) : (a.product b).toRat = a.toRat * b.toRat := by
  have outer : 0 < Int.gcd a.num b.den :=
    Int.gcd_pos_of_ne_zero_right _ (Int.natCast_ne_zero.mpr b.pos.ne')
  have inner : 0 < Int.gcd a.den b.num :=
    Int.gcd_pos_of_ne_zero_left _ (Int.natCast_ne_zero.mpr a.pos.ne')
  have leftDen : ((a.den / Int.gcd a.den b.num : Nat) : ℚ) = a.den / Int.gcd a.den b.num :=
    Nat.cast_div (Int.gcd_dvd_natAbs_left ..) (by exact_mod_cast inner.ne')
  have rightDen : ((b.den / Int.gcd a.num b.den : Nat) : ℚ) = b.den / Int.gcd a.num b.den :=
    Nat.cast_div (Int.gcd_dvd_natAbs_right ..) (by exact_mod_cast outer.ne')
  have outerNonzero : ((Int.gcd a.num b.den : Nat) : ℚ) ≠ 0 := by exact_mod_cast outer.ne'
  have innerNonzero : ((Int.gcd a.den b.num : Nat) : ℚ) ≠ 0 := by exact_mod_cast inner.ne'
  have aDen := a.den_ne_zero
  have bDen := b.den_ne_zero
  simp only [toRat_eq_div,product]
  rw [Int.cast_mul,Nat.cast_mul,cast_reduced (Int.gcd_dvd_left ..) outer,
    cast_reduced (Int.gcd_dvd_right ..) inner,leftDen,rightDen]
  field_simp

theorem mul?_toRat {a b r : Ratio} (result : a.mul? b = some r) : r.toRat = a.toRat * b.toRat := by
  rw [mul?_eq] at result
  split at result
  · cases result
    exact toRat_product a b
  · contradiction

theorem quotientParts?_value {a b : Ratio} {num den : Int} (nonzero : b.toRat ≠ 0)
    (parts : quotientParts? a b = some (num,den)) : (num : ℚ) / den = a.toRat / b.toRat := by
  have divisor := toRat_ne_zero nonzero
  have aDen := a.den_ne_zero
  have bDen := b.den_ne_zero
  simp only [toRat_eq_div]
  unfold quotientParts? at parts
  split at parts
  next sameDen =>
    cases parts
    rw [sameDen]
    field_simp
  next =>
  split at parts
  next sameNum =>
    cases parts
    rw [sameNum,Int.cast_natCast,Int.cast_natCast]
    field_simp
  next =>
    simp only [Option.bind_eq_bind,Option.bind_eq_some_iff] at parts
    obtain ⟨above,aboveFits,below,belowFits,made⟩ := parts
    cases word?_eq_some aboveFits
    cases word?_eq_some belowFits
    cases made
    have nums : 0 < Int.gcd a.num b.num :=
      Int.gcd_pos_of_ne_zero_right _ (by exact_mod_cast divisor)
    have dens : 0 < Nat.gcd a.den b.den := Nat.gcd_pos_of_pos_left _ a.pos
    have numsNonzero : ((Int.gcd a.num b.num : Nat) : ℚ) ≠ 0 := by exact_mod_cast nums.ne'
    have densNonzero : ((Nat.gcd a.den b.den : Nat) : ℚ) ≠ 0 := by exact_mod_cast dens.ne'
    rw [Int.cast_mul,Int.cast_mul,cast_reduced (Int.gcd_dvd_left ..) nums,
      cast_reduced (Int.gcd_dvd_right ..) nums,
      cast_reduced (by exact_mod_cast Nat.gcd_dvd_right a.den b.den) dens,
      cast_reduced (by exact_mod_cast Nat.gcd_dvd_left a.den b.den) dens,
      Int.cast_natCast,Int.cast_natCast]
    field_simp

theorem ofParts?_toRat {num den : Int} {r : Ratio} (made : ofParts? num den = some r) :
    r.toRat = num / den := by
  unfold ofParts? at made
  split at made
  next pos =>
    cases made
    have back : ((den.toNat : Int) : ℚ) = den := by rw [Int.toNat_of_nonneg pos.le]
    rw [toRat_eq_div,← back,Int.cast_natCast]
  next => contradiction

/-- Dividing both parts by their common divisor, and changing both signs, keeps the quotient. -/
theorem div?_toRat {a b r : Ratio} (nonzero : b.toRat ≠ 0) (result : a.div? b = some r) :
    r.toRat = a.toRat / b.toRat := by
  simp only [div?,Option.bind_eq_bind,Option.bind_eq_some_iff] at result
  obtain ⟨⟨num,den⟩,parts,reduced⟩ := result
  rw [← quotientParts?_value nonzero parts]
  dsimp only at reduced
  split at reduced
  next zero =>
    cases reduced
    rw [toRat_ofInt,zero,Int.cast_zero,zero_div]
  next numNonzero =>
  have common : 0 < Int.gcd num den := Int.gcd_pos_of_ne_zero_left _ numNonzero
  have commonNonzero : ((Int.gcd num den : Nat) : ℚ) ≠ 0 := by exact_mod_cast common.ne'
  have top := cast_reduced (Int.gcd_dvd_left num den) common
  have bottom := cast_reduced (Int.gcd_dvd_right num den) common
  have cancelled : ((num / Int.gcd num den : Int) : ℚ) / ((den / Int.gcd num den : Int) : ℚ) = num / den := by
    rw [top,bottom,div_div_div_cancel_right₀ commonNonzero]
  split at reduced
  next same =>
    cases reduced
    have denNonzero : (den : ℚ) ≠ 0 := by exact_mod_cast same ▸ numNonzero
    rw [toRat_ofInt,same,div_self denNonzero,Int.cast_one]
  next =>
  split at reduced
  next =>
    simp only [Option.bind_eq_some_iff] at reduced
    obtain ⟨negNum,numFits,negDen,denFits,made⟩ := reduced
    cases word?_eq_some numFits
    cases word?_eq_some denFits
    rw [ofParts?_toRat made,Int.cast_neg,Int.cast_neg,neg_div_neg_eq,cancelled]
  next => rw [ofParts?_toRat reduced,cancelled]

end Ratio

namespace Number

theorem isExact_iff {n : Number} : n.isExact = true ↔ ∃ q, n.toRat? = some q := by
  cases n <;> simp [isExact,toRat?,toRatio?]

theorem toRat?_eq_some {n : Number} {q : ℚ} (exact : n.toRat? = some q) :
    ∃ r, n.toRatio? = some r ∧ r.toRat = q :=
  Option.map_eq_some_iff.mp exact

@[simp] theorem toRat?_integer (i : Int) : (integer i).toRat? = some (i : ℚ) := by
  simp [toRat?,toRatio?]

@[simp] theorem toRat?_ofRatio (r : Ratio) : (ofRatio r).toRat? = some r.toRat := by
  unfold ofRatio
  split
  next whole => simp [Ratio.toRat_eq_div,whole]
  next => rfl

/-- Floating-point results are never exact. -/
@[simp] theorem toRat?_ofFloat (x : Float) : (ofFloat x).toRat? = none := by
  unfold ofFloat
  split
  · rfl
  · split <;> rfl

/-- The two exact levels of an operation compute `meaning`, where the right operand is admitted. -/
structure Operation.Computes (op : Operation) (meaning : ℚ → ℚ → ℚ) (admits : ℚ → Prop) : Prop where
  words : ∀ {x y z : Int}, op.onWords x y = some z → (z : ℚ) = meaning x y
  ratios : ∀ {a b r : Ratio}, admits b.toRat → op.onRatios a b = some r →
    r.toRat = meaning a.toRat b.toRat

theorem addition_computes : addition.Computes (· + ·) fun _ => True where
  words fits := by rw [word?_eq_some fits,Int.cast_add]
  ratios _ result := Ratio.add?_toRat result

theorem subtraction_computes : subtraction.Computes (· - ·) fun _ => True where
  words fits := by rw [word?_eq_some fits,Int.cast_sub]
  ratios _ result := Ratio.sub?_toRat result

theorem multiplication_computes : multiplication.Computes (· * ·) fun _ => True where
  words fits := by rw [word?_eq_some fits,Int.cast_mul]
  ratios _ result := Ratio.mul?_toRat result

theorem division_computes : division.Computes (· / ·) (· ≠ 0) where
  words {x y z} fits := by
    simp only [division] at fits
    split at fits
    next whole =>
      have divides : y ∣ x := Int.dvd_of_emod_eq_zero whole.2
      rw [word?_eq_some fits,Int.cast_div divides (by exact_mod_cast whole.1)]
    next => contradiction
  ratios nonzero result := Ratio.div?_toRat nonzero result

/-- What an exact result of a binary operation says about its operands. -/
def Faithful (op : Number → Number → Except RuntimeFault Number) (meaning : ℚ → ℚ → ℚ)
    (admits : ℚ → Prop) : Prop :=
  ∀ {a b n : Number} {q : ℚ}, op a b = .ok n → n.toRat? = some q →
    ∃ x y, a.toRat? = some x ∧ b.toRat? = some y ∧ admits y ∧ meaning x y = q

theorem ratioOrFloat_exact {op : Operation} {a b n : Number} {q : ℚ}
    (result : ratioOrFloat op a b = .ok n) (exact : n.toRat? = some q) :
    ∃ x y r, a.toRatio? = some x ∧ b.toRatio? = some y ∧ op.onRatios x y = some r ∧ r.toRat = q := by
  unfold ratioOrFloat at result
  split at result
  next m found =>
    cases result
    simp only [exactResult?,Option.bind_eq_bind,Option.bind_eq_some_iff] at found
    obtain ⟨x,left,y,right,found⟩ := found
    obtain ⟨r,fits,rfl⟩ := Option.map_eq_some_iff.mp found
    exact ⟨x,y,r,left,right,fits,by simpa using exact⟩
  next =>
    split at result
    · cases result
      simp at exact
    · contradiction

/-- Complex operands fail, an undefined one gives an undefined result and a float or infinity
leaves the exact levels, so an exact result comes from words or ratios. -/
theorem apply_exact {op : Operation} {meaning : ℚ → ℚ → ℚ} {admits : ℚ → Prop}
    (computes : op.Computes meaning admits) {a b n : Number} {q : ℚ}
    (admitted : ∀ y, b.toRat? = some y → admits y)
    (result : apply op a b = .ok n) (exact : n.toRat? = some q) :
    ∃ x y, a.toRat? = some x ∧ b.toRat? = some y ∧ admits y ∧ meaning x y = q := by
  have onRatios (fallback : ratioOrFloat op a b = .ok n) :
      ∃ x y, a.toRat? = some x ∧ b.toRat? = some y ∧ admits y ∧ meaning x y = q := by
    obtain ⟨x,y,r,left,right,fits,value⟩ := ratioOrFloat_exact fallback exact
    have leftValue : a.toRat? = some x.toRat := by rw [toRat?,left,Option.map_some]
    have rightValue : b.toRat? = some y.toRat := by rw [toRat?,right,Option.map_some]
    have admissible := admitted _ rightValue
    exact ⟨_,_,leftValue,rightValue,admissible,(computes.ratios admissible fits).symm.trans value⟩
  unfold apply at result
  split at result
  · contradiction
  · contradiction
  · cases result
    cases exact
  · cases result
    cases exact
  next x y =>
    split at result
    next z fits =>
      cases result
      rw [toRat?_integer] at exact
      cases exact
      exact ⟨x,y,toRat?_integer x,toRat?_integer y,admitted _ (toRat?_integer y),
        (computes.words fits).symm⟩
    next => exact onRatios result
  next => exact onRatios result

theorem add_faithful : Faithful add (· + ·) fun _ => True := fun result exact =>
  apply_exact addition_computes (fun _ _ => trivial) result exact

theorem sub_faithful : Faithful sub (· - ·) fun _ => True := fun result exact =>
  apply_exact subtraction_computes (fun _ _ => trivial) result exact

theorem mul_faithful : Faithful mul (· * ·) fun _ => True := fun result exact =>
  apply_exact multiplication_computes (fun _ _ => trivial) result exact

/-- Division by exact zero gives no exact number. -/
theorem overZero_inexact {a n : Number} (result : overZero a = .ok n) : n.toRat? = none := by
  unfold overZero at result
  split at result
  · contradiction
  · cases result
    split <;> rfl

theorem isZero_of_toRat? {n : Number} (zero : n.toRat? = some 0) : (n.isExact && n.isZero) = true := by
  obtain ⟨r,found,value⟩ := toRat?_eq_some zero
  have top : r.num = 0 := by
    rw [Ratio.toRat_eq_div,div_eq_zero_iff] at value
    exact_mod_cast value.resolve_right r.den_ne_zero
  cases n with
  | integer i => cases found; simpa [isExact,isZero,Ratio.ofInt] using top
  | fraction s => cases found; simpa [isExact,isZero] using top
  | float | complex | nan | infinite => cases found

theorem div_faithful : Faithful div (· / ·) (· ≠ 0) := by
  intro a b n q result exact
  unfold div at result
  split at result
  next => rw [overZero_inexact result] at exact; contradiction
  next nonzero =>
    refine apply_exact division_computes ?_ result exact
    rintro y value rfl
    exact nonzero (isZero_of_toRat? value)

/-- A fold that ends in an exact number was exact all along: in its start, in every operand, and
so in every accumulator between. -/
theorem foldlM_faithful {op : Number → Number → Except RuntimeFault Number} {meaning : ℚ → ℚ → ℚ}
    {admits : ℚ → Prop} (faithful : Faithful op meaning admits) {ns : List Number}
    {start n : Number} {q : ℚ} (result : ns.foldlM op start = .ok n) (exact : n.toRat? = some q) :
    ∃ (x : ℚ) (ys : List ℚ), start.toRat? = some x ∧ ns.map toRat? = ys.map some ∧
      (∀ y ∈ ys, admits y) ∧ ys.foldl meaning x = q := by
  induction ns generalizing start with
  | nil =>
    cases result
    exact ⟨q,[],exact,rfl,by simp,rfl⟩
  | cons m ns ih =>
    rw [List.foldlM_cons] at result
    cases next : op start m with
    | error fault => rw [next] at result; contradiction
    | ok acc =>
      rw [next] at result
      obtain ⟨z,ys,accExact,rest,admitted,value⟩ := ih result
      obtain ⟨x,y,startExact,mExact,admittedHead,step⟩ := faithful next accExact
      refine ⟨x,y :: ys,startExact,?_,?_,?_⟩
      · simp only [List.map_cons,mExact,rest]
      · exact List.forall_mem_cons.mpr ⟨admittedHead,admitted⟩
      · rw [List.foldl_cons,step,value]

end Number

namespace Arguments

theorem checkKinds_all {procedure : String} {guard : Kind → Bool} {args : List Value}
    (checked : checkKinds procedure [guard] args = .ok ()) : ∀ v ∈ args, guard v.kind = true := by
  induction args with
  | nil => simp
  | cons v args ih =>
    unfold checkKinds at checked
    split at checked
    next passed => exact List.forall_mem_cons.mpr ⟨passed,ih checked⟩
    next => contradiction

theorem number_of_kind {v : Value} (numeric : v.kind.isNumber = true) :
    ∃ n, v = .number n := by
  cases v <;> first | exact ⟨_,rfl⟩ | contradiction

/-- Arguments that pass the guard are numbers, and none is left out. -/
theorem numbers_eq {procedure : String} {args : List Value} {ns : List Number}
    (admitted : numbers procedure Kind.isNumber args = .ok ns) : args = ns.map Value.number := by
  unfold numbers at admitted
  cases checked : checkKinds procedure [Kind.isNumber] args with
  | error fault => rw [checked] at admitted; contradiction
  | ok =>
    rw [checked] at admitted
    cases admitted
    have numeric := checkKinds_all checked
    clear checked
    induction args with
    | nil => rfl
    | cons v args ih =>
      obtain ⟨n,rfl⟩ := number_of_kind (numeric v List.mem_cons_self)
      simp only [List.filterMap_cons,Value.number?,List.map_cons]
      rw [← ih fun w member => numeric w (List.mem_cons_of_mem _ member)]

end Arguments

/-- The rational number that a value is, if it is an exact number. -/
def Value.toRat? (v : Value) : Option ℚ := v.number? >>= Number.toRat?

theorem Value.map_toRat?_number (ns : List Number) :
    (ns.map Value.number).map Value.toRat? = ns.map Number.toRat? := by
  rw [List.map_map]
  rfl

namespace Primitive

/-- The arithmetic operators and the operation each of them folds with. -/
def binary? : Primitive → Option Binary
  | add => some Number.add
  | sub => some Number.sub
  | mul => some Number.mul
  | div => some Number.div
  | _ => none

/-- The left fold that an arithmetic operator stands for. A quotient needs divisors other than
zero, and differences and quotients need an argument. -/
def rational? : Primitive → List ℚ → Option ℚ
  | add, qs => some (qs.foldl (· + ·) 0)
  | mul, qs => some (qs.foldl (· * ·) 1)
  | sub, [q] => some (0 - q)
  | sub, q :: qs => some (qs.foldl (· - ·) q)
  | div, [q] => if q = 0 then none else some (1 / q)
  | div, q :: qs => if 0 ∈ qs then none else some (qs.foldl (· / ·) q)
  | _, _ => none

variable {op : Binary} {meaning : ℚ → ℚ → ℚ} {admits : ℚ → Prop} {procedure : String}
  {identity n : Number} {e q : ℚ} {args : List Value}

theorem accumulate_exact (faithful : Number.Faithful op meaning admits)
    (neutral : identity.toRat? = some e) (result : accumulate procedure identity op args = .ok n)
    (exact : n.toRat? = some q) :
    ∃ qs : List ℚ, args.map Value.toRat? = qs.map some ∧ qs.foldl meaning e = q := by
  unfold accumulate at result
  cases admitted : Arguments.numbers procedure Kind.isNumber args with
  | error fault => rw [admitted] at result; contradiction
  | ok ns =>
    rw [admitted] at result
    obtain ⟨x,qs,start,values,-,value⟩ := Number.foldlM_faithful faithful result exact
    rw [neutral] at start
    cases start
    exact ⟨qs,by rw [Arguments.numbers_eq admitted,Value.map_toRat?_number,values],value⟩

/-- The arguments of a reduction: one that is combined with the identity, or a first one and
others that are folded into it. -/
theorem reduce_exact (faithful : Number.Faithful op meaning admits)
    (neutral : identity.toRat? = some e) (result : reduce procedure identity op args = .ok n)
    (exact : n.toRat? = some q) :
    (∃ y, args.map Value.toRat? = [some y] ∧ admits y ∧ meaning e y = q) ∨
      ∃ (x : ℚ) (y : ℚ) (ys : List ℚ), args.map Value.toRat? = (x :: y :: ys).map some ∧
        (∀ z ∈ y :: ys, admits z) ∧ (y :: ys).foldl meaning x = q := by
  unfold reduce at result
  cases enough : Arguments.atLeast 1 args.length with
  | error fault => rw [enough] at result; contradiction
  | ok =>
  rw [enough] at result
  cases admitted : Arguments.numbers procedure Kind.isNumber args with
  | error fault => rw [admitted] at result; contradiction
  | ok ns =>
  rw [admitted] at result
  have numeric := Arguments.numbers_eq admitted
  rw [numeric,Value.map_toRat?_number]
  match ns, result with
  | [], _ => simp [numeric,Arguments.atLeast] at enough
  | [m], result =>
    obtain ⟨x,y,start,value,admitted,step⟩ := faithful result exact
    rw [neutral] at start
    cases start
    exact .inl ⟨y,by rw [List.map_singleton,value],admitted,step⟩
  | first :: second :: rest, result =>
    obtain ⟨x,qs,start,values,admitted,value⟩ := Number.foldlM_faithful faithful result exact
    cases qs with
    | nil => simp at values
    | cons y ys => exact .inr ⟨x,y,ys,by rw [List.map_cons,start,values]; rfl,admitted,value⟩

theorem arithmetic_ok {result : Except RuntimeFault Number} {state next : State}
    (returned : arithmetic result state = .ok (.number n) next) : result = .ok n := by
  cases result with
  | error fault => contradiction
  | ok m => cases returned; rfl

theorem run_exact {p : Primitive} {op : Binary} (arithmetic : p.binary? = some op)
    {resolve : Value → Eval Value} {state next : State}
    (returned : p.run resolve args state = .ok (.number n) next) (exact : n.toRat? = some q) :
    ∃ qs : List ℚ, args.map Value.toRat? = qs.map some ∧ p.rational? qs = some q := by
  have one : (Number.integer 1).toRat? = some (1 : ℚ) := by simp
  have zero : (Number.integer 0).toRat? = some (0 : ℚ) := by simp
  cases p with
  | add =>
    obtain ⟨qs,values,value⟩ := accumulate_exact Number.add_faithful zero (arithmetic_ok returned) exact
    exact ⟨qs,values,congrArg some value⟩
  | mul =>
    obtain ⟨qs,values,value⟩ := accumulate_exact Number.mul_faithful one (arithmetic_ok returned) exact
    exact ⟨qs,values,congrArg some value⟩
  | sub =>
    obtain ⟨y,values,-,value⟩ | ⟨x,y,ys,values,-,value⟩ :=
      reduce_exact Number.sub_faithful zero (arithmetic_ok returned) exact
    · exact ⟨[y],values,congrArg some value⟩
    · exact ⟨x :: y :: ys,values,congrArg some value⟩
  | div =>
    obtain ⟨y,values,nonzero,value⟩ | ⟨x,y,ys,values,nonzero,value⟩ :=
      reduce_exact Number.div_faithful one (arithmetic_ok returned) exact
    · exact ⟨[y],values,by rw [rational?,if_neg nonzero,value]⟩
    · have apart : (0 : ℚ) ∉ y :: ys := fun member => nonzero 0 member rfl
      exact ⟨x :: y :: ys,values,by rw [rational?,if_neg apart,value]; simp⟩
  | _ => cases arithmetic

theorem binary?_faithful {p : Primitive} {op : Binary} (arithmetic : p.binary? = some op) :
    ∃ meaning admits, Number.Faithful op meaning admits := by
  cases p with
  | add => cases arithmetic; exact ⟨_,_,Number.add_faithful⟩
  | sub => cases arithmetic; exact ⟨_,_,Number.sub_faithful⟩
  | mul => cases arithmetic; exact ⟨_,_,Number.mul_faithful⟩
  | div => cases arithmetic; exact ⟨_,_,Number.div_faithful⟩
  | _ => cases arithmetic

/-- Exact results are never wrong: if an arithmetic operator returns an exact number, all its
arguments were exact and the number is their rational fold. No argument brings a fold back to an
exact number once its accumulator has left them. -/
theorem exact_result_is_rational_fold {p : Primitive} {op : Binary}
    (arithmetic : p.binary? = some op) :
    (∀ (resolve : Value → Eval Value) (args : List Value) (state next : State) (n : Number),
      p.run resolve args state = .ok (.number n) next → n.isExact = true →
        ∃ (qs : List ℚ) (q : ℚ), args.map Value.toRat? = qs.map some ∧
          p.rational? qs = some q ∧ n.toRat? = some q) ∧
    ∀ (start n : Number) (rest : List Number),
      rest.foldlM op start = .ok n → n.isExact = true → start.isExact = true := by
  constructor
  · intro resolve args state next n returned exact
    obtain ⟨q,value⟩ := Number.isExact_iff.mp exact
    obtain ⟨qs,values,fold⟩ := run_exact arithmetic returned value
    exact ⟨qs,q,values,fold,value⟩
  · intro start n rest result exact
    obtain ⟨q,value⟩ := Number.isExact_iff.mp exact
    obtain ⟨meaning,admits,faithful⟩ := binary?_faithful arithmetic
    obtain ⟨x,-,startExact,-⟩ := Number.foldlM_faithful faithful result value
    exact Number.isExact_iff.mpr ⟨x,startExact⟩

/-- An integer, a negative integer and a fraction, whose quotient is a fraction again. -/
theorem quotient_of_mixed_arguments :
    div.binary? = some Number.div ∧
    div.run pure [.number (.integer 1),.number (.integer (-6)),.number (.fraction ⟨1,4,by decide⟩)]
      ⟨.empty,.none⟩ = .ok (.number (.fraction ⟨-2,3,by decide⟩)) ⟨.empty,.none⟩ ∧
    ∃ (qs : List ℚ) (q : ℚ),
      [Value.number (.integer 1),.number (.integer (-6)),.number (.fraction ⟨1,4,by decide⟩)].map
        Value.toRat? = qs.map some ∧ div.rational? qs = some q ∧
      (Number.fraction ⟨-2,3,by decide⟩).toRat? = some q := by
  have arithmetic : div.binary? = some Number.div := rfl
  refine ⟨arithmetic,rfl,?_⟩
  exact (exact_result_is_rational_fold arithmetic).1 pure _ ⟨.empty,.none⟩ ⟨.empty,.none⟩ _ rfl rfl

end Primitive
end MiniScheme
