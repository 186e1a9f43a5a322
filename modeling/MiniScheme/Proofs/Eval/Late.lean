import MiniScheme.Proofs.Eval.Congruence

/-! Syntax errors of evaluations. Most syntax errors are found by reading alone: a form that is
evaluated can only have a dot, a vector mark or a parameter list that is out of place. -/
namespace MiniScheme

namespace Eval

/-- A computation that fails, if it does, with no syntax error that only reading can find. -/
def FailsLate {α : Type} (x : Eval α) : Prop :=
  ∀ (state next : State) (e : SyntaxError), x state = .error (.reading e) next →
    e.fault.isLate = true

variable {α β : Type} {x : Eval α}

theorem FailsLate.bind {f : α → Eval β} (first : x.FailsLate) (rest : ∀ a, (f a).FailsLate) :
    (x >>= f).FailsLate := by
  intro state next e failed
  simp only [Bind.bind,EStateM.bind] at failed
  cases outcome : x state with
  | ok a middle =>
    rw [outcome] at failed
    exact rest a middle next e failed
  | error failure middle =>
    rw [outcome] at failed
    cases failed
    exact first state next e outcome

theorem FailsLate.traced (inside : x.FailsLate) (pos : Position) (env : FrameId) :
    (Eval.traced pos env x).FailsLate := by
  intro state next e failed
  simp only [Eval.traced] at failed
  cases outcome : x state with
  | ok a middle =>
    rw [outcome] at failed
    contradiction
  | error failure middle =>
    rw [outcome] at failed
    cases failure with
    | reading found => cases failed; exact inside state next e outcome
    | running | outOfFuel => cases failed

theorem FailsLate.congruence : Congruence fun _ x _ => x.FailsLate where
  pure _ := fun _ _ _ failed => nomatch failed
  bind := .bind
  traced pos env inside := inside.traced pos env
  onStore _ := fun _ _ _ failed => nomatch failed
  changeStore _ := fun _ _ _ failed => nomatch failed
  readStore _ := fun _ _ _ failed => nomatch failed
  note _ := fun _ _ _ failed => nomatch failed
  running _ _ := fun _ _ _ failed => nomatch failed
  late _ late := by intro _ _ _ failed; cases failed; exact late
  outOfFuel := fun _ _ _ failed => nomatch failed

end Eval

/-- The evaluator of any depth, in all that it is used for. -/
structure Evaluator.FailsLate (ev : Evaluator) : Prop where
  eval (n : Node) (env : FrameId) : (ev.eval n env).FailsLate
  force (v : Value) : (ev.force v).FailsLate
  apply (op : Value) (ops : List Operand) (env : FrameId) (pos : Position) :
    (ev.apply op ops env pos).FailsLate
  program (p : Program) (env : FrameId) : (p.run ev env).FailsLate

namespace Evaluator

open Eval

theorem ofFuel_late (fuel : Nat) :
    Related (fun _ x _ => x.FailsLate) (ofFuel fuel) (ofFuel fuel) := by
  induction fuel with
  | zero => exact ⟨fun _ _ => FailsLate.congruence.outOfFuel,fun _ => FailsLate.congruence.outOfFuel⟩
  | succ fuel ih => exact FailsLate.congruence.step ih

theorem ofFuel_failsLate (fuel : Nat) : (ofFuel fuel).FailsLate where
  eval := (ofFuel_late fuel).eval
  force := (ofFuel_late fuel).force
  apply := FailsLate.congruence.apply (ofFuel_late fuel)
  program p env := by
    unfold Program.run
    split
    · exact FailsLate.congruence.fail _
    · exact FailsLate.congruence.body (ofFuel_late fuel) env p.forms

end Evaluator
end MiniScheme
