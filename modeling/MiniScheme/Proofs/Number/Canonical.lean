import Mathlib.Data.Int.GCD
import MiniScheme.Proofs.Number.Exact
import MiniScheme.Proofs.Number.Written

/-! Canonical numbers. Literals and arithmetic give only fractions in lowest terms that are no
integers, and only finite floats. A canonical exact number is known by its value and by its text. -/
namespace MiniScheme

namespace Ratio

/-- Numerator and denominator have no common divisor. -/
def Lowest (r : Ratio) : Prop := r.num.natAbs.Coprime r.den

theorem ofInt_lowest (i : Int) : (ofInt i).Lowest := Nat.coprime_one_right _

/-- Dividing both parts by their common divisor leaves none. -/
theorem make_lowest (num den : Int) (nonzero : den ≠ 0) : (make num den nonzero).Lowest := by
  have common : 0 < Int.gcd num den := Int.gcd_pos_of_ne_zero_right num nonzero
  have divides : (Int.gcd num den : Int) ∣ den.sign * num := Dvd.dvd.mul_left (Int.gcd_dvd_left ..) _
  have top : (den.sign * num / Int.gcd num den).natAbs = num.natAbs / Int.gcd num den := by
    rw [Int.natAbs_ediv_of_dvd divides,Int.natAbs_mul,Int.natAbs_sign_of_ne_zero nonzero,Nat.one_mul]
    rfl
  rw [Lowest]
  simp only [make,top]
  exact Nat.coprime_div_gcd_div_gcd common

theorem combine?_lowest {op : Int → Int → Int} {a b r : Ratio} (result : combine? op a b = some r) :
    r.Lowest := by
  simp only [combine?,Option.bind_eq_bind,Option.bind_eq_some_iff] at result
  obtain ⟨_,_,_,_,_,_,num,_,made⟩ := result
  cases made
  exact make_lowest num _ _

/-- Each numerator is prime to its own denominator beforehand, and to the other one once what they
share is cancelled. -/
theorem product_lowest {a b : Ratio} (left : a.Lowest) (right : b.Lowest) :
    (a.product b).Lowest := by
  have outer : 0 < Int.gcd a.num b.den :=
    Int.gcd_pos_of_ne_zero_right _ (Int.natCast_ne_zero.mpr b.pos.ne')
  have inner : 0 < Int.gcd a.den b.num :=
    Int.gcd_pos_of_ne_zero_left _ (Int.natCast_ne_zero.mpr a.pos.ne')
  have aTop : (a.num / Int.gcd a.num b.den).natAbs = a.num.natAbs / Int.gcd a.num b.den :=
    Int.natAbs_ediv_of_dvd (Int.gcd_dvd_left ..)
  have bTop : (b.num / Int.gcd a.den b.num).natAbs = b.num.natAbs / Int.gcd a.den b.num :=
    Int.natAbs_ediv_of_dvd (Int.gcd_dvd_right ..)
  have aDivides : Int.gcd a.num b.den ∣ a.num.natAbs := Int.gcd_dvd_natAbs_left ..
  have bDivides : Int.gcd a.den b.num ∣ b.num.natAbs := Int.gcd_dvd_natAbs_right ..
  have aDen : Int.gcd a.den b.num ∣ a.den := Int.gcd_dvd_natAbs_left ..
  have bDen : Int.gcd a.num b.den ∣ b.den := Int.gcd_dvd_natAbs_right ..
  rw [Lowest]
  dsimp only [product]
  rw [Int.natAbs_mul,aTop,bTop]
  refine .mul_left (.mul_right ?_ ?_) (.mul_right ?_ ?_)
  · exact (left.coprime_div_left aDivides).coprime_div_right aDen
  · exact Nat.coprime_div_gcd_div_gcd outer
  · exact (Nat.coprime_div_gcd_div_gcd inner).symm
  · exact (right.coprime_div_left bDivides).coprime_div_right bDen

theorem mul?_lowest {a b r : Ratio} (left : a.Lowest) (right : b.Lowest)
    (result : a.mul? b = some r) : r.Lowest := by
  rw [mul?_eq] at result
  split at result
  · cases result
    exact product_lowest left right
  · contradiction

theorem ofParts?_lowest {num den : Int} {r : Ratio} (coprime : Int.gcd num den = 1)
    (made : ofParts? num den = some r) : r.Lowest := by
  unfold ofParts? at made
  split at made
  next pos =>
    cases made
    have size : den.toNat = den.natAbs := by omega
    rw [Lowest]
    dsimp only
    rw [size]
    exact coprime
  next => contradiction

theorem div?_lowest {a b r : Ratio} (result : a.div? b = some r) : r.Lowest := by
  simp only [div?,Option.bind_eq_bind,Option.bind_eq_some_iff] at result
  obtain ⟨⟨num,den⟩,-,reduced⟩ := result
  dsimp only at reduced
  split at reduced
  next =>
    cases reduced
    exact ofInt_lowest 0
  next numNonzero =>
  split at reduced
  next =>
    cases reduced
    exact ofInt_lowest 1
  next =>
  have coprime : Int.gcd (num / Int.gcd num den) (den / Int.gcd num den) = 1 :=
    Int.gcd_div_gcd_div_gcd (Int.gcd_pos_of_ne_zero_left _ numNonzero)
  split at reduced
  next =>
    simp only [Option.bind_eq_some_iff] at reduced
    obtain ⟨negNum,numFits,negDen,denFits,made⟩ := reduced
    cases word?_eq_some numFits
    cases word?_eq_some denFits
    exact ofParts?_lowest (by rwa [Int.gcd_neg,Int.neg_gcd]) made
  next => exact ofParts?_lowest coprime reduced

/-- Ratios in lowest terms have the same value only if they have the same parts: each denominator
divides the other. -/
theorem compare_eq_iff {a b : Ratio} (left : a.Lowest) (right : b.Lowest) :
    a.compare b = .eq ↔ a = b := by
  rw [compare,Std.LawfulEqCmp.compare_eq_iff_eq]
  constructor
  · intro cross
    have sizes : a.num.natAbs * b.den = b.num.natAbs * a.den := by
      simpa [Int.natAbs_mul] using congrArg Int.natAbs cross
    have down : a.den ∣ b.den := left.symm.dvd_of_dvd_mul_left (Dvd.intro_left _ sizes.symm)
    have up : b.den ∣ a.den := right.symm.dvd_of_dvd_mul_left (Dvd.intro_left _ sizes)
    have den : a.den = b.den := Nat.dvd_antisymm down up
    have nonzero : (b.den : Int) ≠ 0 := Int.natCast_ne_zero.mpr b.pos.ne'
    rw [den] at cross
    have num : a.num = b.num := Int.eq_of_mul_eq_mul_right nonzero cross
    obtain ⟨aNum,aDen,_⟩ := a
    obtain ⟨bNum,bDen,_⟩ := b
    cases den
    cases num
    rfl
  · rintro rfl
    rfl

end Ratio

namespace Number

theorem ofRatio_canonical {r : Ratio} (lowest : r.Lowest) : (ofRatio r).Canonical := by
  have pos := r.pos
  unfold ofRatio
  split
  next => trivial
  next whole => exact ⟨by omega,lowest⟩

theorem quotient_canonical (num den : Int) : (quotient num den).Canonical := by
  unfold quotient
  split
  next => split <;> trivial
  next nonzero => exact ofRatio_canonical (Ratio.make_lowest num den nonzero)

theorem ofFloat_canonical (x : Float) : (ofFloat x).Canonical := by
  unfold ofFloat
  split
  next => trivial
  next defined =>
    split
    next => trivial
    next finite => exact ⟨by simpa using defined,by simpa using finite⟩

theorem toRatio?_lowest {n : Number} {r : Ratio} (canonical : n.Canonical)
    (exact : n.toRatio? = some r) : r.Lowest := by
  cases n with
  | integer i => cases exact; exact Ratio.ofInt_lowest i
  | fraction s => cases exact; exact canonical.2
  | float | complex | nan | infinite => cases exact

/-! Arithmetic. -/

/-- The operation has no ratio as result that could be reduced further. -/
def Operation.Reduces (op : Operation) : Prop :=
  ∀ {a b r : Ratio}, a.Lowest → b.Lowest → op.onRatios a b = some r → r.Lowest

theorem ratioOrFloat_canonical {op : Operation} (reduces : op.Reduces) {a b c : Number}
    (left : a.Canonical) (right : b.Canonical) (result : ratioOrFloat op a b = .ok c) :
    c.Canonical := by
  unfold ratioOrFloat at result
  split at result
  next found =>
    cases result
    simp only [exactResult?,Option.bind_eq_bind,Option.bind_eq_some_iff] at found
    obtain ⟨x,exactLeft,y,exactRight,found⟩ := found
    obtain ⟨r,fits,rfl⟩ := Option.map_eq_some_iff.mp found
    exact ofRatio_canonical
      (reduces (toRatio?_lowest left exactLeft) (toRatio?_lowest right exactRight) fits)
  next =>
    split at result
    · cases result
      exact ofFloat_canonical _
    · contradiction

theorem apply_canonical {op : Operation} (reduces : op.Reduces) {a b c : Number}
    (left : a.Canonical) (right : b.Canonical) (result : apply op a b = .ok c) : c.Canonical := by
  have fallback := ratioOrFloat_canonical (c := c) reduces left right
  unfold apply at result
  split at result
  · contradiction
  · contradiction
  · cases result; trivial
  · cases result; trivial
  next =>
    split at result
    next => cases result; trivial
    next => exact fallback result
  next => exact fallback result

theorem div_canonical {a b c : Number} (left : a.Canonical) (right : b.Canonical)
    (result : div a b = .ok c) : c.Canonical := by
  unfold div at result
  split at result
  next =>
    unfold overZero at result
    split at result
    · contradiction
    · cases result
      split <;> trivial
  next => exact apply_canonical (fun _ _ => Ratio.div?_lowest) left right result

/-! Literals. -/

end Number

namespace Literal

theorem real?_canonical {r : Radix} {cs : List Char} {n : Number} (read : real? r cs = some n) :
    n.Canonical := by
  unfold real? at read
  split at read
  next =>
    simp only [Option.bind_eq_bind,Option.bind_eq_some_iff] at read
    obtain ⟨num,-,den,-,made⟩ := read
    cases made
    exact Number.quotient_canonical num den
  next =>
  split at read
  next =>
    obtain ⟨x,-,rfl⟩ := Option.map_eq_some_iff.mp read
    exact Number.ofFloat_canonical x
  next =>
    simp only [Option.bind_eq_bind,Option.bind_eq_some_iff] at read
    obtain ⟨i,-,read⟩ := read
    split at read
    next => cases read; trivial
    next =>
      obtain ⟨x,-,rfl⟩ := Option.map_eq_some_iff.mp read
      exact Number.ofFloat_canonical x

theorem complex?_canonical {r : Radix} {cs : List Char} {n : Number} (read : complex? r cs = some n) :
    n.Canonical := by
  unfold complex? at read
  split at read
  next =>
    simp only [Option.bind_eq_bind,Option.bind_eq_some_iff] at read
    obtain ⟨_,_,_,_,made⟩ := read
    cases made
    trivial
  next =>
    simp only [Option.bind_eq_bind,Option.bind_eq_some_iff] at read
    obtain ⟨_,_,made⟩ := read
    cases made
    trivial

end Literal

namespace Number

theorem parse?_canonical {text : String} {n : Number} (read : parse? text = some n) : n.Canonical := by
  unfold parse? Literal.read? Literal.body? at read
  split at read
  next => exact Literal.complex?_canonical read
  next => exact Literal.real?_canonical read

/-! Exact numbers. -/

theorem eqv_eq_true_iff {a b : Number} (left : a.Canonical) (right : b.Canonical)
    (exactLeft : a.isExact = true) (exactRight : b.isExact = true) : a.eqv b = true ↔ a = b := by
  cases a with
  | integer i => cases b <;> simp_all [isExact,eqv]
  | fraction r =>
    cases b with
    | fraction s =>
      rw [eqv,beq_iff_eq,fraction.injEq,Ratio.compare_eq_iff left.2 right.2]
    | integer => simp [eqv]
    | float | complex | nan | infinite => contradiction
  | float | complex | nan | infinite => contradiction

/-- A ratio that is an integer is no canonical fraction. -/
theorem eq_of_toRatio? {a b : Number} {r : Ratio} (left : a.Canonical) (right : b.Canonical)
    (first : a.toRatio? = some r) (second : b.toRatio? = some r) : a = b := by
  have apart {i : Int} {s : Ratio} (canonical : (fraction s).Canonical)
      (same : Ratio.ofInt i = s) : False := by
    have large := canonical.1
    rw [← same] at large
    simp [Ratio.ofInt] at large
  cases a with
  | integer i =>
    cases first
    cases b with
    | integer j => cases second; rfl
    | fraction s => cases second; exact (apart right rfl).elim
    | float | complex | nan | infinite => cases second
  | fraction s =>
    cases first
    cases b with
    | integer j => cases second; exact (apart left rfl).elim
    | fraction t => cases second; rfl
    | float | complex | nan | infinite => cases second
  | float | complex | nan | infinite => cases first

theorem exists_toRatio? {n : Number} (exact : n.isExact = true) : ∃ r, n.toRatio? = some r := by
  cases n with
  | integer i => exact ⟨.ofInt i,rfl⟩
  | fraction r => exact ⟨r,rfl⟩
  | float | complex | nan | infinite => contradiction

theorem compare_exact {a b : Number} {x y : Ratio} (left : a.toRatio? = some x)
    (right : b.toRatio? = some y) : a.compare b = some (x.compare y) := by
  cases a <;> cases b <;> cases left <;> cases right <;> rfl

theorem compare_eq_iff {a b : Number} (left : a.Canonical) (right : b.Canonical)
    (exactLeft : a.isExact = true) (exactRight : b.isExact = true) :
    a.compare b = some .eq ↔ a = b := by
  obtain ⟨x,first⟩ := exists_toRatio? exactLeft
  obtain ⟨y,second⟩ := exists_toRatio? exactRight
  rw [compare_exact first second,Option.some.injEq,
    Ratio.compare_eq_iff (toRatio?_lowest left first) (toRatio?_lowest right second)]
  constructor
  · rintro rfl
    exact eq_of_toRatio? left right first second
  · rintro rfl
    exact Option.some.inj (first.symm.trans second)

open Literal in
theorem fraction_text_split (r : Ratio) : splitAt? '/' (fraction r).text.toList =
    some ((Int.repr r.num).toList,(Int.repr r.den).toList) := by
  rw [text,String.toList_append,String.toList_append,List.append_assoc]
  exact splitAt?_append (repr_noSlash r.num)

open Literal in
/-- The slash tells fractions from integers, and the digits on either side give the parts back. -/
theorem text_inj {a b : Number} (exactLeft : a.isExact = true) (exactRight : b.isExact = true)
    (same : a.text = b.text) : a = b := by
  have part {i j : Int} (digits : (Int.repr i).toList = (Int.repr j).toList) : i = j := by
    have left := integer?_repr i
    rw [digits,integer?_repr j] at left
    exact (Option.some.inj left).symm
  have split := congrArg (fun text => splitAt? '/' text.toList) same
  cases a with
  | integer i =>
    have whole : splitAt? '/' (integer i).text.toList = none := splitAt?_of_absent (repr_noSlash i)
    cases b with
    | integer j => exact congrArg integer (part (congrArg String.toList same))
    | fraction s => rw [whole,fraction_text_split] at split; contradiction
    | float | complex | nan | infinite => contradiction
  | fraction r =>
    rw [fraction_text_split] at split
    cases b with
    | integer j =>
      have whole : splitAt? '/' (integer j).text.toList = none := splitAt?_of_absent (repr_noSlash j)
      rw [whole] at split
      contradiction
    | fraction s =>
      rw [fraction_text_split,Option.some.injEq,Prod.mk.injEq] at split
      obtain ⟨num,den,_⟩ := r
      obtain ⟨num',den',_⟩ := s
      cases part split.1
      cases part split.2
      rfl
    | float | complex | nan | infinite => contradiction
  | float | complex | nan | infinite => contradiction

end Number
end MiniScheme
