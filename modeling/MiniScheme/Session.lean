import MiniScheme.Eval.Global
import MiniScheme.Store.Equal

/-! Questions a host program asks between evaluations. -/
namespace MiniScheme

namespace Store

/-- The names that a frame binds itself, in the order of their code points. -/
def names (s : Store) (f : FrameId) : List String :=
  (((s.frame? f).map Frame.bindings).getD []).map (·.1) |>.mergeSort fun a b => decide (a ≤ b)

/-- A frame as its names. -/
def frameText (s : Store) (f : FrameId) : String :=
  "Environment \x7b" ++ ", ".intercalate (s.names f) ++ "\x7d"

/-- At most `limit` elements of a list. An improper end counts as one more, which is a fault. -/
def elements (s : Store) (limit : Nat) (v : Value) : List (Except RuntimeFault Value) :=
  let (values, last) := s.walk limit v
  let ending := match last with
    | .nil | .pair _ => []
    | other => [.error (.typeMismatch other.kind "list")]
  (values.map .ok ++ ending).take limit

end Store

namespace Datum

mutual

/-- Gives each string of a datum an identity of its own. -/
def label (next : Nat) : Datum → Datum × Nat
  | string text _ => (string text next, next + 1)
  | pair head tail =>
    let (head, next) := head.label next
    let (tail, next) := tail.label next
    (pair head tail, next)
  | vector items =>
    let (items, next) := labelAll next items
    (vector items, next)
  | other => (other, next)

def labelAll (next : Nat) : List Datum → List Datum × Nat
  | [] => ([], next)
  | d :: ds =>
    let (d, next) := d.label next
    let (ds, next) := labelAll next ds
    (d :: ds, next)

end

end Datum

namespace Eval

/-- A value made by the host. -/
def construct (d : Datum) : Eval Value := onStore fun s =>
  let (d, fresh) := d.label s.fresh
  { s with fresh }.build d

/-- All elements of a proper list. -/
def properList (v : Value) : Eval (List Value) := do
  let (values, last) ← readStore fun s => s.walk s.pairs.size v
  match last with
  | .nil => return values
  | .pair _ => throw .outOfFuel
  | other => fail (.typeMismatch other.kind "list")

end Eval

namespace State

/-- A new frame without bindings, inside `parent` if there is one. -/
def newFrame (s : State) (parent : Option FrameId) : FrameId × State :=
  let (f, store) := s.store.newFrame parent
  (f, { s with store })

def install (s : State) (tracer : Tracer) : TracerId × State :=
  let (id, tracers) := s.tracers.install tracer
  (id, { s with tracers })

def remove (s : State) (id : TracerId) : Option Tracer × State :=
  let (tracer, tracers) := s.tracers.remove id
  (tracer, { s with tracers })

end State
end MiniScheme
