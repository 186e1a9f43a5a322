import MiniScheme.Error
import MiniScheme.Store.Text
import MiniScheme.Tracer

/-! Computations of the evaluator: they change the store and tell the tracers, and may fail. What
was done before a failure stays done. -/
namespace MiniScheme

structure State where
  store : Store
  tracers : Tracers

abbrev Eval := EStateM Failure State

namespace Eval

def onStore {α : Type} (f : Store → α × Store) : Eval α := fun state =>
  match state with
  | ⟨store, tracers⟩ =>
    match f store with
    | (a, store) => .ok a ⟨store, tracers⟩

def changeStore (f : Store → Store) : Eval Unit := fun state =>
  match state with
  | ⟨store, tracers⟩ => .ok () ⟨f store, tracers⟩

def readStore {α : Type} (f : Store → α) : Eval α := fun state => .ok (f state.store) state

def note (call : CallRecord) : Eval Unit := fun state =>
  match state with
  | ⟨store, tracers⟩ => .ok () ⟨store, tracers.note call⟩

/-- A fault found by a built-in operation, which knows no place. -/
def fail {α : Type} (fault : RuntimeFault) : Eval α := throw (.running (.ofFault fault))

def failAt {α : Type} (fault : RuntimeFault) (pos : Position) (env : FrameId) : Eval α :=
  throw (.running (.located fault pos env))

def ofSyntax {α : Type} : Except SyntaxError α → Eval α
  | .ok a => pure a
  | .error e => throw (.reading e)

def ofFault {α : Type} : Except RuntimeFault α → Eval α
  | .ok a => pure a
  | .error fault => fail fault

/-- Runs an application at `pos` in `env`, which errors record on their way out. -/
def traced {α : Type} (pos : Position) (env : FrameId) (body : Eval α) : Eval α := fun state =>
  match body state with
  | .ok a next => .ok a next
  | .error failure next => .error (failure.passThrough pos env) next

def define (env : FrameId) (name : String) (value : Value) : Eval Unit :=
  changeStore fun s => s.define env name value

def newChild (parent : FrameId) : Eval FrameId := onStore fun s => s.newFrame (some parent)

def newList (values : List Value) : Eval Value := onStore fun s => s.list values

def quote (datum : Except SyntaxError Datum) : Eval Value := do
  let d ← ofSyntax datum
  onStore fun s => s.build d

def lookup (name : String) (pos : Position) (env : FrameId) : Eval Value := do
  match ← readStore fun s => s.lookup env name with
  | some v => pure v
  | none => failAt (.unboundVariable name) pos env

end Eval

/-- How fragments are evaluated and delayed values resolved. One step of evaluation is written
against this record, and the evaluator ties the knot by recursion on fuel. -/
structure Evaluator where
  eval : Node → FrameId → Eval Value
  force : Value → Eval Value

namespace Evaluator

/-- Evaluates forms in order and gives the value of the last. -/
def body (ev : Evaluator) (env : FrameId) : List Node → Eval Value
  | [] => pure .unspecified
  | [n] => ev.eval n env
  | n :: ns => do
    let _ ← ev.eval n env
    ev.body env ns

end Evaluator
end MiniScheme
