import Mathlib.Data.List.Chain
import MiniScheme.Proofs.Eval.Fuel

/-! The trace of an error. On its way out an error records the applications it passes through, but
not one in the frame that it has already reached. To say which applications it passes through,
evaluation is also run with other ways of recording: one that leaves out no application, and one
that records none, so that errors come out as they were raised. Then they have no trace, unless a
list was to be spliced that does not end in nil. -/
namespace MiniScheme

namespace RuntimeError

/-- What is kept of a path through applications, innermost first: those in another frame than the
last one kept, and at first than `last`. -/
def collapse (last : Option FrameId) : List (Position × FrameId) → List (Position × FrameId)
  | [] => []
  | (pos,env) :: path =>
    if last = some env then collapse last path else (pos,env) :: collapse (some env) path

/-- The error with its trace collapsed. -/
def abridged (e : RuntimeError) : RuntimeError :=
  { e with frames := (collapse e.env e.frames.toList).toArray }

/-- An error of splicing a list that does not end in nil. Its trace starts at the symbol that is
bound to the list. -/
inductive OfSplicing (state : State) : RuntimeError → Prop where
  | intro {name : String} {pos : Position} {env : FrameId} {list last : Value}
      {values : List Value} : state.store.lookup env name = some list →
      state.store.walk state.store.pairs.size list = (values,last) → last ≠ .nil →
      (∀ cell, last ≠ .pair cell) →
      OfSplicing state ⟨.typeMismatch last.kind "list",none,none,#[(pos,env)]⟩

/-- The error as it is where it is raised: without a trace, unless it is one of splicing. -/
def Raised (state : State) (e : RuntimeError) : Prop := e.frames = #[] ∨ e.OfSplicing state

/-- What is raised has nothing in its trace that could be left out. -/
theorem Raised.abridged {state : State} {e : RuntimeError} (raised : e.Raised state) :
    e.abridged = e := by
  obtain ⟨fault,pos,env,frames⟩ := e
  obtain fresh | ⟨-,-,-,-⟩ := raised
  · cases fresh
    rfl
  · rfl

end RuntimeError

namespace Failure

def abridged : Failure → Failure
  | .running e => .running e.abridged
  | other => other

end Failure

namespace Eval

/-- Computations that come to the same values and leave the same states, and whose failures are
related. -/
inductive SameUpTo (F : State → Failure → Failure → Prop) {α : Type} :
    Outcome α → Outcome α → Prop where
  | ok (a : α) (next : State) : SameUpTo F (.ok a next) (.ok a next)
  | error {failure other : Failure} (next : State) : F next failure other →
      SameUpTo F (.error failure next) (.error other next)

def Follows (F : State → Failure → Failure → Prop) (α : Type) (x y : Eval α) : Prop :=
  ∀ state, SameUpTo F (x state) (y state)

/-- A relation that failures have to themselves when they are raised. -/
structure AtSource (F : State → Failure → Failure → Prop) : Prop where
  running (state : State) (e : RuntimeError) : e.Raised state → F state (.running e) (.running e)
  reading (state : State) (e : SyntaxError) : F state (.reading e) (.reading e)
  outOfFuel (state : State) : F state .outOfFuel .outOfFuel

variable {F : State → Failure → Failure → Prop} {α β : Type}

theorem Follows.bind {x y : Eval α} {f g : α → Eval β} (first : Follows F α x y)
    (next : ∀ a, Follows F β (f a) (g a)) : Follows F β (x >>= f) (y >>= g) := by
  intro state
  have start := first state
  simp only [Bind.bind,EStateM.bind]
  generalize x state = left at start
  generalize y state = right at start
  cases start with
  | ok a middle => exact next a middle
  | error middle related => exact .error middle related

/-- What becomes of a failure that leaves an application. -/
abbrev Recording := Position → FrameId → Failure → Failure

/-- An application at `pos` in `env` whose failures are treated by `record`. -/
def recorded (record : Recording) (pos : Position) (env : FrameId) (body : Eval α) : Eval α :=
  fun state =>
    match body state with
    | .ok a next => .ok a next
    | .error failure next => .error (record pos env failure) next

theorem Follows.recorded {record other : Recording} {pos : Position} {env : FrameId} {x y : Eval α}
    (kept : ∀ state f g, F state f g → F state (record pos env f) (other pos env g))
    (inside : Follows F α x y) :
    Follows F α (Eval.recorded record pos env x) (Eval.recorded other pos env y) := by
  intro state
  have same := inside state
  simp only [Eval.recorded]
  generalize x state = left at same
  generalize y state = right at same
  cases same with
  | ok a middle => exact .ok a middle
  | error middle related => exact .error middle (kept middle _ _ related)

theorem AtSource.compatible (atSource : AtSource F) : Compatible (Follows F) where
  pure a := fun state => .ok a state
  bind := .bind
  onStore _ := fun _ => .ok _ _
  changeStore _ := fun _ => .ok _ _
  readStore _ := fun _ => .ok _ _
  running e fresh := fun state => .error state (atSource.running state e (.inl fresh))
  late e _ := fun state => .error state (atSource.reading state e)
  outOfFuel := fun state => .error state (atSource.outOfFuel state)

theorem Follows.note (call : CallRecord) : Follows F Unit (Eval.note call) (Eval.note call) :=
  fun _ => .ok _ _

/-- A list that does not end in nil cannot be spliced, and the error starts its path at the symbol
that is bound to the list. -/
theorem splice_improper {name : String} {pos : Position} {env : FrameId} {state : State}
    {list last : Value} {values : List Value} (bound : state.store.lookup env name = some list)
    (ends : state.store.walk state.store.pairs.size list = (values,last)) (improper : last ≠ .nil)
    (finite : ∀ cell, last ≠ .pair cell) :
    Operand.splice name pos env state =
      .error (.running ⟨.typeMismatch last.kind "list",none,none,#[(pos,env)]⟩) state := by
  simp only [Operand.splice,Eval.lookup,Eval.readStore,bind,EStateM.bind,bound,ends,pure,EStateM.pure]
  cases last with
  | nil => contradiction
  | pair cell => exact absurd rfl (finite cell)
  | _ => rfl

/-- Splicing alone raises errors that have a trace already. -/
theorem AtSource.splice (atSource : AtSource F) (name : String) (pos : Position) (env : FrameId) :
    Follows F (List Operand) (Operand.splice name pos env) (Operand.splice name pos env) := by
  intro state
  cases bound : state.store.lookup env name with
  | none =>
    have raised := atSource.running state _ (.inl (rfl : (RuntimeError.located
      (.unboundVariable name) pos env).frames = #[]))
    simp only [Operand.splice,Eval.lookup,Eval.readStore,Bind.bind,EStateM.bind,bound]
    exact .error state raised
  | some list =>
    rcases ends : state.store.walk state.store.pairs.size list with ⟨values,last⟩
    by_cases improper : last ≠ .nil ∧ ∀ cell, last ≠ .pair cell
    · rw [splice_improper bound ends improper.1 improper.2]
      exact .error state (atSource.running state _ (.inr (.intro bound ends improper.1 improper.2)))
    · simp only [Operand.splice,Eval.lookup,Eval.readStore,Bind.bind,EStateM.bind,bound,ends,Pure.pure,
        EStateM.pure]
      cases last with
      | nil => exact .ok _ state
      | pair cell => exact .error state (atSource.outOfFuel state)
      | _ => simp at improper

end Eval

namespace Evaluator

open Eval

variable {F : State → Failure → Failure → Prop} {record other : Recording}

end Evaluator

/-- Something to evaluate. -/
inductive Task where
  | eval (n : Node) (env : FrameId)
  | force (v : Value)
  | apply (op : Value) (ops : List Operand) (env : FrameId) (pos : Position)
  | program (text : String) (source : Option String) (env : FrameId)

namespace Task

open Eval Evaluator

def run (fuel : Nat) : Task → Eval Value
  | eval n env => (ofFuel fuel).eval n env
  | force v => (ofFuel fuel).force v
  | apply op ops env pos => (ofFuel fuel).apply op ops env pos
  | program text source env => evaluate (ofFuel fuel) text source env

variable {F : State → Failure → Failure → Prop} {record other : Recording}

end Task
end MiniScheme
