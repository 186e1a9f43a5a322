import MiniScheme.Proofs.Eval.Congruence

/-! Evaluation without a bound. More fuel never changes an answer, only the lack of one, so a
computation that ends has one outcome however much fuel it is given beyond what it needs. -/
namespace MiniScheme

namespace Eval

/-- What a computation ends in. -/
abbrev Outcome (α : Type) := EStateM.Result Failure State α

/-- The outcome of a computation that had fuel enough. -/
def Final {α : Type} : Outcome α → Prop
  | .error .outOfFuel _ => False
  | _ => True

/-- `Approximates x y`: wherever `x` comes to an end, `y` comes to the same. -/
def Approximates (α : Type) (x y : Eval α) : Prop := ∀ state, Final (x state) → y state = x state

theorem Approximates.refl {α : Type} (x : Eval α) : Approximates α x x := fun _ _ => rfl

theorem Approximates.outOfFuel {α : Type} (y : Eval α) :
    Approximates α (throw .outOfFuel) y := fun _ final => final.elim

@[simp] theorem final_ok {α : Type} (a : α) (state : State) : Final (.ok a state : Outcome α) :=
  trivial

theorem final_error_iff {α : Type} {failure : Failure} {state : State} :
    Final (.error failure state : Outcome α) ↔ failure ≠ .outOfFuel := by
  cases failure <;> simp [Final]

/-- Running out of fuel is not hidden by the applications it passes through. -/
theorem passThrough_eq_outOfFuel {failure : Failure} {pos : Position} {env : FrameId} :
    failure.passThrough pos env = .outOfFuel ↔ failure = .outOfFuel := by
  cases failure <;> simp [Failure.passThrough]

theorem Approximates.bind {α β : Type} {x y : Eval α} {f g : α → Eval β}
    (first : Approximates α x y) (next : ∀ a, Approximates β (f a) (g a)) :
    Approximates β (x >>= f) (y >>= g) := by
  intro state final
  have start := first state
  simp only [Bind.bind,EStateM.bind] at final ⊢
  cases outcome : x state with
  | ok a middle =>
    rw [outcome] at final start
    rw [start (final_ok ..)]
    exact next a middle final
  | error failure middle =>
    rw [outcome] at final start
    rw [start (final_error_iff.mpr (final_error_iff.mp final))]

theorem Approximates.traced {α : Type} {x y : Eval α} (pos : Position) (env : FrameId)
    (inside : Approximates α x y) :
    Approximates α (Eval.traced pos env x) (Eval.traced pos env y) := by
  intro state final
  have same := inside state
  simp only [Eval.traced] at final ⊢
  cases outcome : x state with
  | ok a middle =>
    rw [outcome] at same
    rw [same (final_ok ..)]
  | error failure middle =>
    rw [outcome] at final same
    have ended : failure ≠ .outOfFuel := fun out =>
      final_error_iff.mp final (passThrough_eq_outOfFuel.mpr out)
    rw [same (final_error_iff.mpr ended)]

theorem Approximates.congruence : Congruence Approximates where
  pure _ := .refl _
  bind := .bind
  traced := .traced
  onStore _ := .refl _
  changeStore _ := .refl _
  readStore _ := .refl _
  note _ := .refl _
  running _ _ := .refl _
  late _ _ := .refl _
  outOfFuel := .refl _

/-- A deeper evaluator comes to the same wherever a shallower one comes to an end. -/
theorem ofFuel_approximates {fuel more : Nat} (le : fuel ≤ more) :
    Evaluator.Related Approximates (.ofFuel fuel) (.ofFuel more) := by
  induction fuel generalizing more with
  | zero => exact ⟨fun _ _ => .outOfFuel _,fun _ => .outOfFuel _⟩
  | succ fuel ih =>
    obtain ⟨less,rfl⟩ : ∃ less, more = less + 1 := ⟨more - 1,by omega⟩
    exact Approximates.congruence.step (ih (Nat.le_of_succ_le_succ le))

variable {α : Type}

/-- `Converges run state outcome`: given fuel enough, the run ends in `outcome`. -/
def Converges (run : Evaluator → Eval α) (state : State) (outcome : Outcome α) : Prop :=
  Final outcome ∧ ∃ enough, ∀ fuel, enough ≤ fuel → run (.ofFuel fuel) state = outcome

/-- A run that keeps its outcome when it is given more fuel. -/
def Stable (run : Evaluator → Eval α) : Prop :=
  ∀ fuel more, fuel ≤ more → Approximates α (run (.ofFuel fuel)) (run (.ofFuel more))

theorem Stable.converges {run : Evaluator → Eval α} (stable : Stable run) {fuel : Nat}
    {state : State} (final : Final (run (.ofFuel fuel) state)) :
    Converges run state (run (.ofFuel fuel) state) :=
  ⟨final,fuel,fun more le => stable fuel more le state final⟩

/-- A run that comes to no more than another, whatever fuel it is given, ends as that does. -/
theorem Converges.of_approximates {run other : Evaluator → Eval α} (stable : Stable other)
    (extra : Nat)
    (below : ∀ fuel, Approximates α (run (.ofFuel fuel)) (other (.ofFuel (fuel + extra))))
    {state : State} {outcome : Outcome α} (ends : Converges run state outcome) :
    Converges other state outcome := by
  obtain ⟨final,enough,reached⟩ := ends
  have first := reached enough (Nat.le_refl _)
  have same := below enough state (first ▸ final)
  rw [first] at same
  have settled := stable.converges (same ▸ final)
  rwa [same] at settled

/-- Runs that come to related outcomes at every depth end together. -/
theorem Converges.related {β : Type} {R : Outcome α → Outcome β → Prop}
    (final : ∀ {x y}, R x y → Final x → Final y) {run : Evaluator → Eval α}
    {other : Evaluator → Eval β} (stable : Stable other) (extra : Nat) {state : State}
    (related : ∀ fuel, R (run (.ofFuel (fuel + extra)) state) (other (.ofFuel (fuel + extra)) state))
    {outcome : Outcome α} (ends : Converges run state outcome) :
    ∃ result, Converges other state result ∧ R outcome result := by
  obtain ⟨ended,enough,reached⟩ := ends
  have same := related enough
  rw [reached (enough + extra) (Nat.le_add_right _ _)] at same
  exact ⟨_,stable.converges (final same ended),same⟩

theorem eval_stable (n : Node) (env : FrameId) : Stable fun ev => ev.eval n env :=
  fun _ _ le => (ofFuel_approximates le).eval n env

end Eval
end MiniScheme
