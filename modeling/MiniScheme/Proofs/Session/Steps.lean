import MiniScheme.Proofs.Prompt.Once
import MiniScheme.Session

/-! What a host does with a state, step by step. What every step keeps holds in every state that
steps lead to. -/
namespace MiniScheme

/-- One thing that a host does: it evaluates a text in a frame, makes a child of a frame, binds a
name, or puts a tracer in place or takes one out. -/
inductive Step where
  | evaluate (text : String) (name : Option String) (env : FrameId) (fuel : Nat)
  | child (parent : FrameId)
  | define (env : FrameId) (key : String) (value : Value)
  | install (tracer : Tracer)
  | remove (id : TracerId)

namespace Step

/-- The state after a step. An evaluation that fails leaves what it did before. -/
def run : Step → State → State
  | evaluate text name env fuel,s => (MiniScheme.evaluate (.ofFuel fuel) text name env).after s
  | child parent,s => (s.newFrame (some parent)).2
  | define env key value,s => (Eval.define env key value).after s
  | install tracer,s => (s.install tracer).2
  | remove id,s => (s.remove id).2

/-- Whether a step takes in nothing but texts: all steps but a binding do. -/
def ByText : Step → Prop
  | define .. => False
  | evaluate .. | child _ | install _ | remove _ => True

/-- The state after steps, first to last. -/
def runAll : List Step → State → State
  | [],s => s
  | step :: steps,s => runAll steps (step.run s)

/-- What steps give one after the other, each in the state where it is made. -/
def along {α : Type} (given : Step → State → List α) : List Step → State → List α
  | [],_ => []
  | step :: steps,s => given step s ++ along given steps (step.run s)

end Step

/-- The states that steps lead to from `s`, each allowed in the state where it is made. -/
inductive Reaches (allowed : State → Step → Prop) (s : State) : State → Prop where
  | refl : Reaches allowed s s
  | step {t : State} (step : Step) : Reaches allowed s t → allowed t step →
      Reaches allowed s (step.run t)

/-- What every step keeps, any number of steps keep. -/
theorem Reaches.keeps {allowed : State → Step → Prop} {P : State → Prop} {s t : State}
    (kept : ∀ {t : State} {step : Step}, P t → allowed t step → P (step.run t))
    (reaches : Reaches allowed s t) (start : P s) : P t := by
  induction reaches with
  | refl => exact start
  | step _ _ permitted ih => exact kept ih permitted

end MiniScheme
