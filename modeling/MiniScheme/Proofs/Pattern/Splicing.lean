import MiniScheme.Eval.Interpreter
import MiniScheme.Proofs.Store.Frames

/-! Varargs. A pattern variable with an ellipsis is bound to the list of the operands it stands
for, each delayed in the frame of the call, and a symbol with an ellipsis in a later call splices
them in again. -/
namespace MiniScheme

namespace Operand

/-- An operand of a call in `caller` as it comes back when it was bound and is spliced again: syntax
has become a fragment of `caller`, and all else is as it was. -/
def forwarded (caller : FrameId) : Operand → Operand
  | node n => deferred ⟨n,caller⟩
  | deferred d => deferred d
  | value (.delayed d) => deferred d
  | value v => value v

theorem ofElement_delay (caller : FrameId) (op : Operand) :
    ofElement (op.delay caller) = op.forwarded caller := by
  cases op with
  | node n => rfl
  | deferred d => rfl
  | value v => cases v <;> rfl

/-- A fragment is one step of forcing away from its evaluation in the frame it belongs to. -/
theorem evalForced_fragment (caller : FrameId) (fuel : Nat) (env : FrameId) (n : Node) :
    (deferred ⟨n,caller⟩).evalForced (.ofFuel (fuel + 1)) env =
      (node n).evalForced (.ofFuel fuel) caller := rfl

/-- `Spliced s env name values`: in `env` the name stands for a proper list of the values. -/
def Spliced (s : Store) (env : FrameId) (name : String) (values : List Value) : Prop :=
  ∃ list, s.lookup env name = some list ∧ s.walk s.pairs.size list = (values,.nil)

variable {state : State} {env : FrameId} {name : String} {values : List Value}

/-- Splicing gives the elements and leaves the state as it is. -/
theorem splice_eq (spliced : Spliced state.store env name values) (pos : Position) :
    splice name pos env state = .ok (values.map ofElement) state := by
  obtain ⟨list,found,walked⟩ := spliced
  simp only [splice,Eval.lookup,Eval.readStore,bind,EStateM.bind,found,pure,EStateM.pure,walked]

/-- The elements come in front of the operands that follow. -/
theorem collect_spliced_append {rest : List Node} {ops : List Operand}
    (spliced : Spliced state.store env name values) (pos place : Position)
    (collected : collect env rest state = .ok ops state) :
    collect env (.symbol name pos :: .symbol Node.ellipsis place :: rest) state =
      .ok (values.map ofElement ++ ops) state := by
  have repeated : (Node.symbol Node.ellipsis place).isEllipsis = true := by
    simp [Node.isEllipsis,Node.name?]
  simp only [collect,repeated,if_true,bind,EStateM.bind,splice_eq spliced,collected]
  rfl

theorem collect_spliced (spliced : Spliced state.store env name values) (pos place : Position) :
    collect env [.symbol name pos,.symbol Node.ellipsis place] state =
      .ok (values.map ofElement) state := by
  have nothing : collect env [] state = .ok [] state := rfl
  simpa only [List.append_nil] using collect_spliced_append spliced pos place nothing

end Operand

/-- The store with a name bound to a fresh list of the values. -/
def Store.gather (s : Store) (target : FrameId) (name : String) (values : List Value) : Store :=
  (s.list values).2.define target name (s.list values).1

theorem Operand.spliced_gather {s : Store} {target : FrameId} (present : (s.frame? target).isSome)
    (name : String) (values : List Value) :
    Spliced (s.gather target name values) target name values := by
  refine ⟨(s.list values).1,?_,?_⟩
  · have frames : (s.list values).2.frame? target = s.frame? target :=
      congrArg (·[target.index]?) (Store.list_frames values)
    exact Store.lookup_of_binding? (Store.binding?_define_self (frames ▸ present))
  · have size := s.list_size values
    have walked : (s.list values).2.walk (s.list values).2.pairs.size (s.list values).1 =
        (values,.nil) := Store.walk_list values (by omega)
    have same : (s.list values).2.Extends (s.gather target name values) := ⟨id,id⟩
    exact Store.walk_extends same walked

theorem Capture.bindAll_many (caller target : FrameId) (name : String) (ops : List Operand)
    (store : Store) (tracers : Tracers) :
    bindAll caller target [(name,.many ops)] ⟨store,tracers⟩ =
      .ok () ⟨store.gather target name (ops.map (Operand.delay caller)),tracers⟩ := rfl

/-- Operands that are bound by a vararg and then spliced come back in order, one for one. -/
theorem Operand.collect_bound_vararg {state : State} {target : FrameId}
    (present : (state.store.frame? target).isSome) (caller : FrameId) (name : String)
    (ops : List Operand) (pos place : Position) :
    ∃ captures next, PatternItem.captures? [.vararg name] ops = some captures ∧
      Capture.bindAll caller target captures state = .ok () next ∧
      collect target [.symbol name pos,.symbol Node.ellipsis place] next =
        .ok (ops.map (forwarded caller)) next := by
  obtain ⟨store,tracers⟩ := state
  let next : State := ⟨store.gather target name (ops.map (delay caller)),tracers⟩
  have spliced : Spliced next.store target name (ops.map (delay caller)) :=
    spliced_gather present name _
  refine ⟨_,next,rfl,Capture.bindAll_many caller target name ops store tracers,?_⟩
  rw [collect_spliced spliced,List.map_map]
  congr 1
  exact List.map_congr_left fun op _ => ofElement_delay caller op

end MiniScheme
