import Mathlib.Order.Compare
import Mathlib.Order.Monotone.Basic
import MiniScheme.Proofs.Number.Canonical

/-! Comparisons of several numbers. Only neighbours are compared, but exact numbers are compared as
the rational numbers are, and each of the five relations is transitive. So a chain that holds from
neighbour to neighbour holds between any two of its arguments. -/
namespace MiniScheme

/-- Both sides are multiplied by both denominators, which are positive. -/
theorem Ratio.compare_eq_cmp (a b : Ratio) : a.compare b = cmp a.toRat b.toRat := by
  have positive : (0 : ℚ) < a.den * b.den :=
    mul_pos (Nat.cast_pos.mpr a.pos) (Nat.cast_pos.mpr b.pos)
  have left : ((a.num * b.den : Int) : ℚ) = a.toRat * (a.den * b.den) := by
    rw [toRat_eq_div,Int.cast_mul,Int.cast_natCast,← mul_assoc,div_mul_cancel₀ _ a.den_ne_zero]
  have right : ((b.num * a.den : Int) : ℚ) = b.toRat * (a.den * b.den) := by
    rw [toRat_eq_div,Int.cast_mul,Int.cast_natCast,mul_comm (a.den : ℚ),← mul_assoc,
      div_mul_cancel₀ _ b.den_ne_zero]
  calc a.compare b
      = cmp (a.num * b.den) (b.num * a.den) := (cmp_eq_compare ..).symm
    _ = cmp ((a.num * b.den : Int) : ℚ) (b.num * a.den : Int) := (Int.cast_strictMono.cmp_map_eq ..).symm
    _ = cmp (a.toRat * (a.den * b.den)) (b.toRat * (a.den * b.den)) := by rw [left,right]
    _ = cmp a.toRat b.toRat := cmp_mul_pos_right positive ..

theorem Number.compare_eq_cmp {a b : Number} {x y : ℚ} (left : a.toRat? = some x)
    (right : b.toRat? = some y) : a.compare b = some (cmp x y) := by
  obtain ⟨r,first,rfl⟩ := toRat?_eq_some left
  obtain ⟨t,second,rfl⟩ := toRat?_eq_some right
  rw [compare_exact first second,Ratio.compare_eq_cmp]

namespace Primitive

/-- `Decides accept rel`: the orders that are accepted are those of numbers in the relation. -/
def Decides (accept : Ordering → Bool) (rel : ℚ → ℚ → Prop) : Prop :=
  ∀ x y, accept (cmp x y) = true ↔ rel x y

variable {accept : Ordering → Bool} {rel : ℚ → ℚ → Prop}

/-- Neighbours are in order if and only if the rational numbers form a chain. -/
theorem ordered_iff_isChain (decides : Decides accept rel) {ns : List Number} {qs : List ℚ}
    (exact : ns.map Number.toRat? = qs.map some) : ordered accept ns = true ↔ qs.IsChain rel := by
  induction ns generalizing qs with
  | nil =>
    cases qs with
    | nil => simp [ordered]
    | cons q qs => contradiction
  | cons n ns ih =>
    obtain ⟨x,rest,rfl,head,tail⟩ := List.map_eq_cons_iff.mp exact.symm
    cases ns with
    | nil =>
      cases rest with
      | nil => simp [ordered]
      | cons q qs => contradiction
    | cons m ns =>
      obtain ⟨y,others,rfl,second,-⟩ := List.map_eq_cons_iff.mp tail
      rw [ordered,Number.compare_eq_cmp head.symm second.symm,Option.any_some,Bool.and_eq_true,
        decides x y,ih tail.symm,List.isChain_cons_cons]

end Primitive

namespace Arguments

theorem checkKinds_eq_ok {procedure : String} {guard : Kind → Bool} {args : List Value}
    (passed : ∀ v ∈ args, guard v.kind = true) : checkKinds procedure [guard] args = .ok () := by
  induction args with
  | nil => rfl
  | cons v args ih =>
    obtain ⟨first,rest⟩ := List.forall_mem_cons.mp passed
    rw [checkKinds,if_pos first]
    exact ih rest

end Arguments

namespace Value

theorem exists_numbers {P : Number → Prop} {args : List Value}
    (numeric : ∀ v ∈ args, ∃ n, v = .number n ∧ P n) :
    ∃ ns : List Number, args = ns.map .number ∧ ∀ n ∈ ns, P n := by
  induction args with
  | nil => exact ⟨[],rfl,by simp⟩
  | cons v args ih =>
    obtain ⟨⟨n,rfl,first⟩,rest⟩ := List.forall_mem_cons.mp numeric
    obtain ⟨ns,rfl,others⟩ := ih rest
    exact ⟨n :: ns,rfl,List.forall_mem_cons.mpr ⟨first,others⟩⟩

theorem real_of_exact {args : List Value} {qs : List ℚ} (exact : args.map toRat? = qs.map some) :
    ∀ v ∈ args, ∃ n, v = .number n ∧ n.kind ≠ .complex := by
  intro v member
  have found : v.toRat? ∈ qs.map some := exact ▸ List.mem_map_of_mem member
  obtain ⟨q,-,value⟩ := List.mem_map.mp found
  cases v with
  | number n =>
    refine ⟨n,rfl,?_⟩
    intro complex
    cases n <;> contradiction
  | _ => cases value

end Value

namespace Primitive

/-- Any real numbers can be compared. -/
theorem compareChain_reals (procedure : String) (accept : Ordering → Bool) {ns : List Number}
    (nonempty : ns ≠ []) (reals : ∀ n ∈ ns, n.kind ≠ .complex) :
    compareChain procedure accept (ns.map .number) = .ok (ordered accept ns) := by
  have passed : ∀ v ∈ ns.map Value.number, v.kind.isReal = true := by
    intro v member
    obtain ⟨n,inside,rfl⟩ := List.mem_map.mp member
    have real := reals n inside
    cases n <;> first | rfl | contradiction
  have counted : Arguments.atLeast 1 (ns.map Value.number).length = .ok () := by
    rw [Arguments.atLeast,if_neg]
    simpa using nonempty
  have all : (ns.map Value.number).filterMap Value.number? = ns := by
    rw [List.filterMap_map]
    exact List.filterMap_some
  simp only [compareChain,counted,Arguments.numbers,Arguments.checkKinds_eq_ok passed,all]
  rfl

/-- The comparisons and the relations of the rational numbers that they ask for. -/
def relation? : Primitive → Option (ℚ → ℚ → Prop)
  | eq => some (· = ·)
  | lt => some (· < ·)
  | gt => some (· > ·)
  | le => some (· ≤ ·)
  | ge => some (· ≥ ·)
  | _ => none

/-- Each comparison walks along its arguments with a test for its relation, which is transitive. -/
theorem run_comparison {p : Primitive} (asks : p.relation? = some rel) :
    ∃ accept, Decides accept rel ∧ (∀ x y z, rel x y → rel y z → rel x z) ∧
      ∀ resolve args, p.run resolve args = comparison accept p args := by
  cases p with
  | eq =>
    cases asks
    refine ⟨(· == .eq),?_,fun _ _ _ => Eq.trans,fun _ _ => rfl⟩
    exact fun x y => beq_iff_eq.trans (cmp_eq_eq_iff x y)
  | lt =>
    cases asks
    refine ⟨(· == .lt),?_,fun _ _ _ => lt_trans,fun _ _ => rfl⟩
    exact fun x y => beq_iff_eq.trans (cmp_eq_lt_iff x y)
  | gt =>
    cases asks
    refine ⟨(· == .gt),?_,fun _ _ _ => gt_trans,fun _ _ => rfl⟩
    exact fun x y => beq_iff_eq.trans (cmp_eq_gt_iff x y)
  | le =>
    cases asks
    refine ⟨(· != .gt),?_,fun _ _ _ => le_trans,fun _ _ => rfl⟩
    exact fun x y => bne_iff_ne.trans ((cmp_eq_gt_iff x y).not.trans not_lt)
  | ge =>
    cases asks
    refine ⟨(· != .lt),?_,fun _ _ _ => ge_trans,fun _ _ => rfl⟩
    exact fun x y => bne_iff_ne.trans ((cmp_eq_lt_iff x y).not.trans not_lt)
  | _ => cases asks

/-- A comparison of real numbers answers whether they are in order from neighbour to neighbour. -/
theorem comparison_reals (accept : Ordering → Bool) (p : Primitive) {ns : List Number} (nonempty : ns ≠ [])
    (reals : ∀ n ∈ ns, n.kind ≠ .complex) (state : State) :
    comparison accept p (ns.map .number) state = .ok (.boolean (ordered accept ns)) state := by
  rw [comparison,compareChain_reals p.name accept nonempty reals]
  rfl

/-- Comparisons order the whole list. Given at least one argument, a comparison of exact numbers is
true if and only if its relation holds between every argument and every later one, and a comparison of
any real numbers, infinite and undefined ones among them, is true or false and never fails. -/
theorem comparison_orders_all {p : Primitive} (asks : p.relation? = some rel) {args : List Value}
    (nonempty : args ≠ []) (resolve : Value → Eval Value) (state : State) :
    (∀ qs : List ℚ, args.map Value.toRat? = qs.map some →
      ∃ holds, p.run resolve args state = .ok (.boolean holds) state ∧
        (holds = true ↔ qs.Pairwise rel)) ∧
    ((∀ v ∈ args, ∃ n, v = .number n ∧ n.kind ≠ .complex) →
      ∃ holds, p.run resolve args state = .ok (.boolean holds) state) := by
  obtain ⟨accept,decides,trans,run⟩ := run_comparison asks
  have transitive : IsTrans ℚ rel := ⟨trans⟩
  have answers {ns : List Number} (some : ns.map Value.number ≠ []) (reals : ∀ n ∈ ns, n.kind ≠ .complex) :
      p.run resolve (ns.map .number) state = .ok (.boolean (ordered accept ns)) state := by
    rw [run,comparison_reals accept p (by simpa using some) reals]
  constructor
  · intro qs exact
    obtain ⟨ns,rfl,reals⟩ := Value.exists_numbers (Value.real_of_exact exact)
    rw [Value.map_toRat?_number] at exact
    refine ⟨ordered accept ns,answers nonempty reals,?_⟩
    rw [ordered_iff_isChain decides exact,List.isChain_iff_pairwise]
  · intro numeric
    obtain ⟨ns,rfl,reals⟩ := Value.exists_numbers numeric
    exact ⟨ordered accept ns,answers nonempty reals⟩

/-- Fractions and words up to the largest one. -/
def ascending : List Value :=
  [.number (.fraction ⟨-9223372036854775807,2,by decide⟩),
    .number (.fraction ⟨9223372036854775806,9223372036854775807,by decide⟩),
    .number (.integer 1),.number (.integer 9223372036854775807)]

/-- They ascend from the first to the last. Where a number is undefined there is an answer all the
same. -/
theorem comparison_orders_all_limits :
    lt.run pure ascending ⟨.empty,.none⟩ = .ok (.boolean true) ⟨.empty,.none⟩ ∧
    ∃ holds, ge.run pure [.number .nan,.number .infinite,.number (.float 0.5)] ⟨.empty,.none⟩ =
      .ok (.boolean holds) ⟨.empty,.none⟩ := by
  constructor
  · let qs : List ℚ := [mkRat (-9223372036854775807) 2,
      mkRat 9223372036854775806 9223372036854775807,1,9223372036854775807]
    have values : ascending.map Value.toRat? = qs.map some := by decide +kernel
    have ordered : qs.Pairwise (· < ·) := by decide +kernel
    have nonempty : ascending ≠ [] := by simp [ascending]
    have asks : lt.relation? = some (· < ·) := rfl
    obtain ⟨holds,answer,iff⟩ := (comparison_orders_all asks nonempty pure ⟨.empty,.none⟩).1 qs values
    rw [iff.mpr ordered] at answer
    exact answer
  · refine (comparison_orders_all (p := ge) rfl (by simp) pure ⟨.empty,.none⟩).2 ?_
    simp [Number.kind]

end Primitive
end MiniScheme
