import MiniScheme.Position

/-! Observers of calls. Each installed tracer is told of every closure call and every use of a
transformer, in order, until it is removed. -/
namespace MiniScheme

inductive CallKind where
  | closure | transformer
  deriving DecidableEq, Repr

structure CallRecord where
  kind : CallKind
  pos : Position
  args : Nat
  deriving DecidableEq, Repr

/-- What a tracer keeps: closure calls and a count of transformer uses, or every record. -/
inductive Tracer where
  | callLog (calls : Array CallRecord) (uses : Nat)
  | full (records : Array CallRecord)
  deriving DecidableEq, Repr

namespace Tracer

def note (call : CallRecord) : Tracer → Tracer
  | callLog calls uses =>
    match call.kind with
    | .closure => callLog (calls.push call) uses
    | .transformer => callLog calls (uses + 1)
  | full records => full (records.push call)

end Tracer

structure TracerId where
  index : Nat
  deriving DecidableEq, Repr

/-- The tracers in place, and the number that the next one will get. -/
structure Tracers where
  active : List (TracerId × Tracer)
  next : Nat
  deriving Repr

namespace Tracers

def none : Tracers := ⟨[], 0⟩

def install (t : Tracers) (tracer : Tracer) : TracerId × Tracers :=
  (⟨t.next⟩, ⟨(⟨t.next⟩, tracer) :: t.active, t.next + 1⟩)

/-- Takes a tracer out, if it is in place. -/
def remove (t : Tracers) (id : TracerId) : Option Tracer × Tracers :=
  (t.active.lookup id, { t with active := t.active.filter fun entry => entry.1 != id })

def note (t : Tracers) (call : CallRecord) : Tracers :=
  { t with active := t.active.map fun entry => (entry.1, entry.2.note call) }

end Tracers
end MiniScheme
