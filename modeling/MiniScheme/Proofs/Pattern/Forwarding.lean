import MiniScheme.Eval.Global
import MiniScheme.Proofs.Eval.Fuel
import MiniScheme.Proofs.Pattern.Splicing

/-! Forwarding. An operand of a call may stand as syntax of the call, or as a fragment that carries
the frame of the call with it. Matching, binding and evaluation see no difference, so a transformer
can hand its operands on to any procedure or transformer by a vararg. -/
namespace MiniScheme

/-- The operand with the frame of its call written down. -/
def Operand.pinned (caller : FrameId) : Operand → Operand
  | node n => deferred ⟨n,caller⟩
  | op => op

def Capture.pinned (caller : FrameId) : Capture → Capture
  | one op => one (op.pinned caller)
  | many ops => many (ops.map (Operand.pinned caller))

namespace Operand

variable (caller : FrameId)

@[simp] theorem delay_pinned (op : Operand) :
    (op.pinned caller).delay caller = op.delay caller := by
  cases op <;> rfl

@[simp] theorem children?_pinned (op : Operand) :
    (op.pinned caller).children? = op.children?.map (List.map (pinned caller)) := by
  cases op with
  | node n => simp [pinned,children?,Option.map_map,Function.comp_def]
  | deferred d => simp [pinned,children?,Option.map_map,Function.comp_def]
  | value v => rfl

end Operand

namespace PatternItem

variable (caller : FrameId)

theorem isKeyword_pinned (name : String) (op : Operand) :
    isKeyword name (op.pinned caller) = isKeyword name op := by
  cases op <;> rfl

mutual

theorem admits_pinned : (item : PatternItem) → (op : Operand) →
    item.admits (op.pinned caller) = item.admits op
  | atom _, _ | vararg _, _ => by simp only [admits]
  | keyword name, op => by simp only [admits,isKeyword_pinned]
  | list sub, op => by
    simp only [admits,Operand.children?_pinned]
    cases op.children? with
    | none => rfl
    | some ops => simp only [Option.map_some,List.length_map,admitsAll_pinned sub ops]

theorem admitsAll_pinned : (items : List PatternItem) → (ops : List Operand) →
    admitsAll items (ops.map (Operand.pinned caller)) = admitsAll items ops
  | [], _ => by simp only [admitsAll]
  | _ :: _, [] => rfl
  | item :: items, op :: ops => by
    simp only [List.map_cons,admitsAll,admits_pinned item op,admitsAll_pinned items ops]

end

theorem matchesAll_pinned (pattern : List PatternItem) (ops : List Operand) :
    matchesAll pattern (ops.map (Operand.pinned caller)) = matchesAll pattern ops := by
  simp only [matchesAll,List.length_map,admitsAll_pinned]

mutual

/-- Variables stand for the same operands, with their frame written down. -/
theorem capture?_pinned : (item : PatternItem) → (ops : List Operand) →
    item.capture? (ops.map (Operand.pinned caller)) =
      (item.capture? ops).map (List.map (Prod.map id (Capture.pinned caller)))
  | vararg _, _ | atom _, [] | keyword _, [] | list _, [] => rfl
  | atom _, _ :: _ | keyword _, _ :: _ => rfl
  | list sub, op :: _ => by
    simp only [List.map_cons,capture?,Operand.children?_pinned]
    cases op.children? with
    | none => rfl
    | some parts => exact captures?_pinned sub parts

theorem captures?_pinned : (pattern : List PatternItem) → (ops : List Operand) →
    captures? pattern (ops.map (Operand.pinned caller)) =
      (captures? pattern ops).map (List.map (Prod.map id (Capture.pinned caller)))
  | [], _ => rfl
  | item :: items, ops => by
    simp only [captures?,capture?_pinned item ops,← List.map_drop,captures?_pinned items (ops.drop 1)]
    cases item.capture? ops with
    | none => rfl
    | some first => cases captures? items (ops.drop 1) <;> simp

end

end PatternItem

namespace Capture

variable (caller : FrameId)

theorem toValue_pinned (capture : Capture) :
    (capture.pinned caller).toValue caller = capture.toValue caller := by
  cases capture with
  | one op => simp only [pinned,toValue,Operand.delay_pinned]
  | many ops =>
    simp only [pinned,toValue,List.map_map,Function.comp_def,Operand.delay_pinned]

theorem bindAll_pinned (target : FrameId) (captures : List (String × Capture)) :
    bindAll caller target (captures.map (Prod.map id (pinned caller))) =
      bindAll caller target captures := by
  induction captures with
  | nil => rfl
  | cons entry rest ih =>
    simp only [List.map_cons,Prod.map,bindAll,toValue_pinned,ih,id]

end Capture

theorem Transformer.expand_pinned (ev : Evaluator) (t : Transformer) (ops : List Operand)
    (caller : FrameId) (pos : Position) :
    t.expand ev (ops.map (Operand.pinned caller)) caller pos = t.expand ev ops caller pos := by
  simp only [expand,PatternItem.matchesAll_pinned,PatternItem.captures?_pinned]
  cases t.rules.find? fun rule => PatternItem.matchesAll rule.pattern ops with
  | none => rfl
  | some rule =>
    simp only
    cases PatternItem.captures? rule.pattern ops with
    | none => rfl
    | some captures => simp only [Option.map_some,Capture.bindAll_pinned]

/-- An operator that is no special form meets its operands in three ways only: it evaluates them, it
counts them, or it expands a rule with them. -/
theorem Eval.Congruence.apply_operands {R : (α : Type) → Eval α → Eval α → Prop}
    (h : Congruence R) {ev other : Evaluator} (related : Evaluator.Related R ev other) {op : Value}
    (plain : ∀ form, op ≠ .form form) {ops instead : List Operand} {env : FrameId} {pos : Position}
    (values : R (List Value) (Operand.evalAll ev env ops) (Operand.evalAll other env instead))
    (count : ops.length = instead.length)
    (expansion : ∀ t : Transformer, R Value (t.expand ev ops env pos)
      (t.expand other instead env pos)) :
    R Value (ev.apply op ops env pos) (other.apply op instead env pos) := by
  refine h.traced pos env ?_
  unfold Evaluator.operate
  rw [count]
  cases op with
  | form f => exact absurd rfl (plain f)
  | primitive p => exact h.bind values fun _ => h.primitive related.force p _
  | closure c => exact h.bind values fun _ => h.call h.note related c _ pos
  | transformer t => exact h.bind (h.note _) fun _ => expansion t
  | _ => exact h.bind (h.readStore _) fun _ => h.failAt _ pos env

namespace Operand

open Eval

variable (caller : FrameId)

theorem evalForced_le_pinned (fuel : Nat) (op : Operand) :
    Approximates Value (op.evalForced (.ofFuel fuel) caller)
      ((op.pinned caller).evalForced (.ofFuel (fuel + 1)) caller) := by
  cases op with
  | node n => exact .refl _
  | deferred | value =>
    exact Approximates.congruence.forced (ofFuel_approximates (Nat.le_succ fuel)) caller _

theorem pinned_le_evalForced (fuel : Nat) (op : Operand) :
    Approximates Value ((op.pinned caller).evalForced (.ofFuel fuel) caller)
      (op.evalForced (.ofFuel fuel) caller) := by
  cases op with
  | node n =>
    -- the fragment has spent one step of fuel on being forced
    cases fuel with
    | zero => exact .outOfFuel _
    | succ fuel =>
      rw [pinned,evalForced_fragment]
      exact Approximates.congruence.forced (ofFuel_approximates (Nat.le_succ fuel)) caller _
  | deferred | value => exact .refl _

/-- Lists of operands that come to the same one by one come to the same. -/
theorem evalAll_approximates {ev other : Evaluator} {env : FrameId} {f : Operand → Operand}
    {g : Operand → Operand}
    (each : ∀ op, Approximates Value ((f op).evalForced ev env) ((g op).evalForced other env))
    (ops : List Operand) :
    Approximates (List Value) (evalAll ev env (ops.map f)) (evalAll other env (ops.map g)) := by
  induction ops with
  | nil => exact .refl _
  | cons op ops ih => exact .bind (each op) fun _ => .bind ih fun _ => .refl _

theorem apply_le_pinned {op : Value} (plain : ∀ form, op ≠ .form form) (ops : List Operand)
    (pos : Position) (fuel : Nat) :
    Approximates Value ((Evaluator.ofFuel fuel).apply op ops caller pos)
      ((Evaluator.ofFuel (fuel + 1)).apply op (ops.map (pinned caller)) caller pos) := by
  have related := ofFuel_approximates (Nat.le_succ fuel)
  refine Approximates.congruence.apply_operands related plain ?_ (List.length_map _).symm ?_
  · simpa only [List.map_id] using
      evalAll_approximates (f := id) (evalForced_le_pinned caller fuel) ops
  · intro t
    rw [t.expand_pinned]
    exact Approximates.congruence.expand related t ops caller pos

theorem pinned_le_apply {op : Value} (plain : ∀ form, op ≠ .form form) (ops : List Operand)
    (pos : Position) (fuel : Nat) :
    Approximates Value ((Evaluator.ofFuel fuel).apply op (ops.map (pinned caller)) caller pos)
      ((Evaluator.ofFuel fuel).apply op ops caller pos) := by
  have related := ofFuel_approximates (Nat.le_refl fuel)
  refine Approximates.congruence.apply_operands related plain ?_ (List.length_map _) ?_
  · simpa only [List.map_id] using
      evalAll_approximates (g := id) (pinned_le_evalForced caller fuel) ops
  · intro t
    rw [t.expand_pinned]
    exact .refl _

theorem apply_stable (op : Value) (ops : List Operand) (env : FrameId) (pos : Position) :
    Stable fun ev => ev.apply op ops env pos := fun _ _ le =>
  Approximates.congruence.apply (ofFuel_approximates le) op ops env pos

/-- Forwarding by a vararg is transparent. Operands that were bound and are spliced come back one
for one, as fragments of the call they came from. A procedure or transformer that is applied to
such fragments does what it does with the syntax itself: it gives the same value or error, and
leaves the same store and the same records with the tracers. -/
theorem vararg_forwarding {state : State} {target : FrameId}
    (present : (state.store.frame? target).isSome) {op : Value} (plain : ∀ form, op ≠ .form form)
    (name : String) (ops : List Operand) (nodes : List Node) (pos place : Position) :
    (∃ captures next, PatternItem.captures? [.vararg name] ops = some captures ∧
      Capture.bindAll caller target captures state = .ok () next ∧
      collect target [.symbol name pos,.symbol Node.ellipsis place] next =
        .ok (ops.map (forwarded caller)) next) ∧
    ∀ outcome,
      Converges (fun ev => ev.apply op (nodes.map fun n => deferred ⟨n,caller⟩) caller pos)
        state outcome ↔
      Converges (fun ev => ev.apply op (nodes.map node) caller pos) state outcome := by
  refine ⟨collect_bound_vararg present caller name ops pos place,fun outcome => ?_⟩
  have fragments : (nodes.map node).map (pinned caller) = nodes.map fun n => deferred ⟨n,caller⟩ :=
    List.map_map
  rw [← fragments]
  constructor
  · exact Converges.of_approximates (apply_stable op _ caller pos) 0
      (pinned_le_apply caller plain (nodes.map node) pos)
  · exact Converges.of_approximates (apply_stable op _ caller pos) 1
      (apply_le_pinned caller plain (nodes.map node) pos)

/-- Syntax, a fragment and a value come back from a vararg of the outermost frame, and a transformer
that splices its own vararg into a call of a primitive is applied to fragments. -/
theorem vararg_forwarding_outermost :
    (State.initial.store.frame? Global.frame).isSome ∧
    (∃ captures next,
      PatternItem.captures? [.vararg "x"] [node (.symbol "y" .nowhere),
        deferred ⟨.symbol "z" .nowhere,⟨3⟩⟩,value .nil] = some captures ∧
      Capture.bindAll ⟨1⟩ Global.frame captures .initial = .ok () next ∧
      collect Global.frame [.symbol "x" .nowhere,.symbol Node.ellipsis .nowhere] next =
        .ok [deferred ⟨.symbol "y" .nowhere,⟨1⟩⟩,deferred ⟨.symbol "z" .nowhere,⟨3⟩⟩,value .nil]
          next) ∧
    ∀ outcome,
      Converges (fun ev => ev.apply (.transformer ⟨0,[⟨[.vararg "x"],[.list [.symbol "list" .nowhere,
        .symbol "x" .nowhere,.symbol Node.ellipsis .nowhere] .nowhere]⟩],Global.frame⟩)
        [deferred ⟨.symbol "y" .nowhere,⟨1⟩⟩] ⟨1⟩ .nowhere) .initial outcome ↔
      Converges (fun ev => ev.apply (.transformer ⟨0,[⟨[.vararg "x"],[.list [.symbol "list" .nowhere,
        .symbol "x" .nowhere,.symbol Node.ellipsis .nowhere] .nowhere]⟩],Global.frame⟩)
        [node (.symbol "y" .nowhere)] ⟨1⟩ .nowhere) .initial outcome :=
  ⟨rfl,vararg_forwarding ⟨1⟩ rfl (fun _ same => by cases same) "x" [node (.symbol "y" .nowhere),
    deferred ⟨.symbol "z" .nowhere,⟨3⟩⟩,value .nil] [.symbol "y" .nowhere] .nowhere .nowhere⟩

end Operand
end MiniScheme
