import MiniScheme.Proofs.Number.Canonical

/-! When arithmetic stays exact. Sums, differences and quotients of words and products of canonical
numbers are exact whenever the result, in lowest terms, has parts that are words: what overflows on
the way there would not have fitted in the end either. -/
namespace MiniScheme

/-- A rational number whose numerator and denominator in lowest terms are words. -/
def Representable (q : ℚ) : Prop := InWord q.num ∧ InWord q.den

instance (q : ℚ) : Decidable (Representable q) := inferInstanceAs (Decidable (_ ∧ _))

theorem isSome_word? (i : Int) : (word? i).isSome = true ↔ InWord i := by
  unfold word?
  split <;> simp_all

namespace Ratio

/-- The parts of a ratio in lowest terms are those of the rational number it stands for. -/
theorem Lowest.parts {r : Ratio} (lowest : r.Lowest) :
    r.toRat.num = r.num ∧ (r.toRat.den : Int) = r.den := by
  have pos : (0 : Int) < r.den := Int.natCast_pos.mpr r.pos
  have coprime : r.num.natAbs.Coprime (r.den : Int).natAbs := lowest
  have value : r.toRat = ((r.num : Int) : ℚ) / ((r.den : Int) : ℚ) := by
    rw [toRat_eq_div,Int.cast_natCast]
  rw [value]
  exact ⟨Rat.num_div_eq_of_coprime pos coprime,Rat.den_div_eq_of_coprime pos coprime⟩

theorem Lowest.representable {r : Ratio} (lowest : r.Lowest) :
    Representable r.toRat ↔ InWord r.num ∧ InWord r.den := by
  rw [Representable,lowest.parts.1,lowest.parts.2]

theorem representable_ofInt (i : Int) : Representable i ↔ InWord i := by
  have one : InWord 1 := by decide
  simp [Representable,one]

/-- Cancelling crosswise leaves nothing that could be cancelled later, so a product that is too
large stays too large. -/
theorem isSome_mul? {a b : Ratio} (left : a.Lowest) (right : b.Lowest) :
    (a.mul? b).isSome = true ↔ Representable (a.toRat * b.toRat) := by
  rw [← toRat_product,(product_lowest left right).representable,mul?_eq]
  split <;> simp_all

/-- Over the denominator one, the sum of the numerators is all that is checked last. -/
theorem fits_of_combine? {op : Int → Int → Int} {i j : Int} {r : Ratio}
    (result : combine? op (ofInt i) (ofInt j) = some r) : InWord (op i j) := by
  have common : (ofInt i).common (ofInt j) = 1 := by simp [Ratio.common,ofInt]
  simp only [combine?,common,Option.bind_eq_bind,Option.bind_eq_some_iff] at result
  obtain ⟨lcm,whole,left,first,right,second,num,sum,-⟩ := result
  have one : lcm = 1 := word?_eq_some whole
  have leftEq : left = i := by simpa [one,ofInt] using word?_eq_some first
  have rightEq : right = j := by simpa [one,ofInt] using word?_eq_some second
  rw [leftEq,rightEq] at sum
  exact (isSome_word? _).mp (Option.isSome_of_eq_some sum)

theorem ofParts?_isSome {num den : Int} (pos : 0 < den) : (ofParts? num den).isSome = true := by
  rw [ofParts?,dif_pos pos]
  rfl

theorem inWord_ediv {i : Int} {g : Nat} (word : InWord i) (pos : 0 < g) : InWord (i / g) := by
  have size := Int.natAbs_ediv_le_natAbs i g
  have above : 0 ≤ i → 0 ≤ i / (g : Int) := fun nonneg => Int.ediv_nonneg nonneg (by omega)
  have below : i < 0 → i / (g : Int) < 0 := fun neg => Int.ediv_neg_of_neg_of_pos neg (by omega)
  unfold InWord at word ⊢
  omega

/-- What division does with two whole numbers. Only a negative denominator asks for a check. -/
theorem div?_ofInt (i j : Int) : (ofInt i).div? (ofInt j) =
    if i = 0 then some (ofInt 0)
    else if i = j then some (ofInt 1)
    else if j / (Int.gcd i j : Int) < 0 then
      (word? (-(i / (Int.gcd i j : Int)))).bind fun num =>
        (word? (-(j / (Int.gcd i j : Int)))).bind fun den => ofParts? num den
    else ofParts? (i / (Int.gcd i j : Int)) (j / (Int.gcd i j : Int)) := rfl

/-- Making the denominator positive is the only step of a division of words that can fail, and
then the quotient has no representation. -/
theorem isSome_div? {i j : Int} (nonzero : j ≠ 0) (left : InWord i) (right : InWord j) :
    ((ofInt i).div? (ofInt j)).isSome = true ↔ Representable ((i : ℚ) / j) := by
  have common : 0 < Int.gcd i j := Int.gcd_pos_of_ne_zero_right i nonzero
  have topDivides : (Int.gcd i j : Int) ∣ i := Int.gcd_dvd_left ..
  have bottomDivides : (Int.gcd i j : Int) ∣ j := Int.gcd_dvd_right ..
  have top := inWord_ediv left common
  have bottom := inWord_ediv right common
  have bottomNonzero : j / (Int.gcd i j : Int) ≠ 0 :=
    fun zero => nonzero (by rw [← Int.ediv_mul_cancel bottomDivides,zero,Int.zero_mul])
  have num : (make i j nonzero).num = j.sign * (i / (Int.gcd i j : Int)) :=
    Int.mul_ediv_assoc _ topDivides
  have den : (make i j nonzero).den = (j / (Int.gcd i j : Int)).natAbs :=
    (Int.natAbs_ediv_of_dvd bottomDivides).symm
  rw [← toRat_make i j nonzero,(make_lowest i j nonzero).representable,num,den,div?_ofInt]
  rcases Int.lt_or_gt_of_ne nonzero with negative | positive
  · have reducedNegative : j / (Int.gcd i j : Int) < 0 :=
      Int.ediv_neg_of_neg_of_pos negative (by omega)
    have opposite : j / (j.natAbs : Int) = -1 := by
      rw [show (j.natAbs : Int) = -j by omega,Int.ediv_neg,Int.ediv_self nonzero]
    rw [if_pos reducedNegative,Int.sign_eq_neg_one_of_neg negative,Int.neg_one_mul,
      show ((j / (Int.gcd i j : Int)).natAbs : Int) = -(j / (Int.gcd i j : Int)) by omega]
    split
    next zero =>
      subst zero
      rw [Int.gcd_zero_left,opposite,Int.zero_ediv]
      decide
    next =>
    split
    next same =>
      subst same
      rw [Int.gcd_self,opposite]
      decide
    next =>
      rw [word?,word?]
      split
      next fits =>
        split
        next fitsToo => exact iff_of_true (ofParts?_isSome (by omega)) ⟨fits,fitsToo⟩
        next large => exact iff_of_false (by simp) fun both => large both.2
      next large => exact iff_of_false (by simp) fun both => large both.1
  · have reducedPositive : 0 < j / (Int.gcd i j : Int) := by
      have := Int.ediv_nonneg positive.le (Int.natCast_nonneg (Int.gcd i j))
      omega
    rw [if_neg reducedPositive.not_gt,Int.sign_eq_one_of_pos positive,Int.one_mul,
      Int.natAbs_of_nonneg reducedPositive.le]
    refine iff_of_true ?_ ⟨top,bottom⟩
    split
    · rfl
    · split
      · rfl
      · exact ofParts?_isSome reducedPositive

end Ratio

namespace Number

/-- The operation has a result, which is exact if and only if `fits`, and then is `q`. -/
def ExactIff (result : Except RuntimeFault Number) (q : ℚ) (fits : Prop) : Prop :=
  ∃ n, result = .ok n ∧ (n.isExact = true ↔ fits) ∧ ∀ r, n.toRat? = some r → r = q

theorem ofFloat_inexact (x : Float) : (ofFloat x).isExact = false := by
  unfold ofFloat
  split
  · rfl
  · split <;> rfl

theorem ofRatio_exact (r : Ratio) : (ofRatio r).isExact = true := by
  unfold ofRatio
  split <;> rfl

/-- Exact operands always have a result, and it is exact if the operation succeeds on ratios. -/
theorem ratioOrFloat_of_exact (op : Operation) {a b : Number} {x y : Ratio}
    (left : a.toRatio? = some x) (right : b.toRatio? = some y) :
    ∃ n, ratioOrFloat op a b = .ok n ∧ (n.isExact = true ↔ (op.onRatios x y).isSome = true) := by
  have floats : ∃ u v, a.toFloat? = some u ∧ b.toFloat? = some v := by
    cases a <;> cases left <;> cases b <;> cases right <;> exact ⟨_,_,rfl,rfl⟩
  obtain ⟨u,v,first,second⟩ := floats
  have found : exactResult? op a b = ofRatio <$> op.onRatios x y := by
    rw [exactResult?,left,right]
    rfl
  rw [ratioOrFloat,found]
  cases op.onRatios x y with
  | some r => exact ⟨ofRatio r,rfl,iff_of_true (ofRatio_exact r) rfl⟩
  | none =>
    rw [first,second]
    exact ⟨_,rfl,by simp [ofFloat_inexact]⟩

/-- On words an operation is exact if it succeeds on words or on ratios. -/
theorem apply_integers (op : Operation) (i j : Int) :
    ∃ n, apply op (integer i) (integer j) = .ok n ∧ (n.isExact = true ↔
      (op.onWords i j).isSome = true ∨ (op.onRatios (.ofInt i) (.ofInt j)).isSome = true) := by
  rw [apply]
  cases op.onWords i j with
  | some k => exact ⟨integer k,rfl,by simp [isExact]⟩
  | none =>
    obtain ⟨n,result,exact⟩ := ratioOrFloat_of_exact op (a := integer i) (b := integer j) rfl rfl
    exact ⟨n,result,by simpa using exact⟩

/-- An operation that is never wrong where it is exact need only say when it is. -/
theorem Faithful.exactIff {op : Number → Number → Except RuntimeFault Number} {meaning : ℚ → ℚ → ℚ}
    {admits : ℚ → Prop} (faithful : Faithful op meaning admits) {a b : Number} {p q : ℚ}
    (left : a.toRat? = some p) (right : b.toRat? = some q) {fits : Prop}
    (settled : ∃ n, op a b = .ok n ∧ (n.isExact = true ↔ fits)) :
    ExactIff (op a b) (meaning p q) fits := by
  obtain ⟨n,result,exact⟩ := settled
  refine ⟨n,result,exact,?_⟩
  intro r value
  obtain ⟨x,y,first,second,-,rfl⟩ := faithful result value
  rw [left] at first
  rw [right] at second
  cases first
  cases second
  rfl

theorem add_exactIff (i j : Int) :
    ExactIff (add (integer i) (integer j)) (i + j) (InWord (i + j)) := by
  refine add_faithful.exactIff (toRat?_integer i) (toRat?_integer j) ?_
  obtain ⟨n,result,exact⟩ := apply_integers addition i j
  refine ⟨n,result,exact.trans ⟨?_,fun fits => .inl ((isSome_word? _).mpr fits)⟩⟩
  rintro (words | ratios)
  · exact (isSome_word? _).mp words
  · obtain ⟨r,sum⟩ := Option.isSome_iff_exists.mp ratios
    exact Ratio.fits_of_combine? sum

theorem sub_exactIff (i j : Int) :
    ExactIff (sub (integer i) (integer j)) (i - j) (InWord (i - j)) := by
  refine sub_faithful.exactIff (toRat?_integer i) (toRat?_integer j) ?_
  obtain ⟨n,result,exact⟩ := apply_integers subtraction i j
  refine ⟨n,result,exact.trans ⟨?_,fun fits => .inl ((isSome_word? _).mpr fits)⟩⟩
  rintro (words | ratios)
  · exact (isSome_word? _).mp words
  · obtain ⟨r,difference⟩ := Option.isSome_iff_exists.mp ratios
    exact Ratio.fits_of_combine? difference

/-- A quotient without remainder is an integer, which is tried on words first. -/
theorem div_exactIff {i j : Int} (nonzero : j ≠ 0) (left : InWord i) (right : InWord j) :
    ExactIff (div (integer i) (integer j)) (i / j) (Representable (i / j)) := by
  have divisor : ((integer j).isExact && (integer j).isZero) = false := by
    simp [isExact,isZero,nonzero]
  refine div_faithful.exactIff (toRat?_integer i) (toRat?_integer j) ?_
  obtain ⟨n,result,exact⟩ := apply_integers division i j
  refine ⟨n,by rw [div,divisor]; exact result,exact.trans ⟨?_,fun fits => .inr ?_⟩⟩
  · rintro (words | ratios)
    · obtain ⟨k,quotient⟩ := Option.isSome_iff_exists.mp words
      rw [← division_computes.words quotient,Ratio.representable_ofInt]
      simp only [division] at quotient
      split at quotient
      · rw [word?_eq_some quotient]
        exact (isSome_word? _).mp (Option.isSome_of_eq_some quotient)
      · contradiction
    · exact (Ratio.isSome_div? nonzero left right).mp ratios
  · exact (Ratio.isSome_div? nonzero left right).mpr fits

theorem mul_exactIff {a b : Number} {p q : ℚ} (canonicalLeft : a.Canonical)
    (canonicalRight : b.Canonical) (left : a.toRat? = some p) (right : b.toRat? = some q) :
    ExactIff (mul a b) (p * q) (Representable (p * q)) := by
  refine mul_faithful.exactIff left right ?_
  obtain ⟨x,first,rfl⟩ := toRat?_eq_some left
  obtain ⟨y,second,rfl⟩ := toRat?_eq_some right
  have fits := Ratio.isSome_mul? (toRatio?_lowest canonicalLeft first)
    (toRatio?_lowest canonicalRight second)
  have ratios := ratioOrFloat_of_exact multiplication first second
  rw [show multiplication.onRatios = Ratio.mul? from rfl,fits] at ratios
  cases a with
  | float | complex | nan | infinite => cases first
  | fraction => cases b <;> first | exact ratios | cases second
  | integer i =>
    cases b with
    | float | complex | nan | infinite => cases second
    | fraction => exact ratios
    | integer j =>
      cases first
      cases second
      obtain ⟨n,result,exact⟩ := apply_integers multiplication i j
      refine ⟨n,result,exact.trans ⟨?_,fun fit => .inr (fits.mpr fit)⟩⟩
      rintro (words | ratios)
      · rw [Ratio.toRat_ofInt,Ratio.toRat_ofInt,← Int.cast_mul,Ratio.representable_ofInt]
        exact (isSome_word? _).mp words
      · exact fits.mp ratios

/-- Exactness is kept whenever it can be. Sums and differences of words are exact if and only if
they are words, quotients of words if and only if their parts in lowest terms are words, and
products of canonical numbers likewise; and an exact result is the right one. -/
theorem exact_iff_representable :
    (∀ i j : Int, InWord i → InWord j →
      ExactIff (add (integer i) (integer j)) (i + j) (InWord (i + j)) ∧
      ExactIff (sub (integer i) (integer j)) (i - j) (InWord (i - j)) ∧
      (j ≠ 0 → ExactIff (div (integer i) (integer j)) (i / j) (Representable (i / j)))) ∧
    ∀ (a b : Number) (p q : ℚ), a.Canonical → b.Canonical → a.toRat? = some p → b.toRat? = some q →
      ExactIff (mul a b) (p * q) (Representable (p * q)) :=
  ⟨fun i j left right =>
      ⟨add_exactIff i j,sub_exactIff i j,fun nonzero => div_exactIff nonzero left right⟩,
    fun _ _ _ _ => mul_exactIff⟩

/-- The least word has no opposite, so its quotient by minus one is no exact number; the product of
two fractions is exact though the product of their numerators is too large. -/
theorem exact_iff_representable_limits :
    (∃ n, div (integer (-9223372036854775808)) (integer (-1)) = .ok n ∧ n.isExact = false) ∧
    ∃ n, mul (fraction ⟨9223372036854775807,2,by decide⟩) (fraction ⟨2,3,by decide⟩) = .ok n ∧
      n.isExact = true := by
  obtain ⟨words,products⟩ := exact_iff_representable
  constructor
  · obtain ⟨-,-,quotient⟩ := words (-9223372036854775808) (-1) (by decide) (by decide)
    obtain ⟨n,result,exact,-⟩ := quotient (by decide)
    exact ⟨n,result,Bool.eq_false_iff.mpr fun holds => absurd (exact.mp holds) (by decide +kernel)⟩
  · obtain ⟨n,result,exact,-⟩ := products (fraction ⟨9223372036854775807,2,by decide⟩)
      (fraction ⟨2,3,by decide⟩) (mkRat 9223372036854775807 2) (mkRat 2 3) ⟨by decide,by decide⟩
      ⟨by decide,by decide⟩ rfl rfl
    exact ⟨n,result,exact.mpr (by decide +kernel)⟩

end Number
end MiniScheme
