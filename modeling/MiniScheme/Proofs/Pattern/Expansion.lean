import MiniScheme.Proofs.Pattern.Splicing
import MiniScheme.Session

/-! Expansion. A use of a transformer binds the variables of its rule and runs the body of the rule.
Where the body is one special form, that form gets what its operands come to in the frame of the
transformer. -/
namespace MiniScheme

variable {state : State} {env : FrameId}

theorem Eval.traced_congr {α : Type} {x y : Eval α} {other : State} (same : x state = y other)
    (pos : Position) (env : FrameId) : Eval.traced pos env x state = Eval.traced pos env y other := by
  simp only [Eval.traced,same]

theorem Eval.traced_ok {α : Type} {x : Eval α} {a : α} {next : State} (pos : Position)
    (value : x state = .ok a next) : Eval.traced pos env x state = .ok a next := by
  rw [Eval.traced,value]

theorem Evaluator.eval_symbol {name : String} {v : Value}
    (found : state.store.lookup env name = some v) (fuel : Nat) (pos : Position) :
    (ofFuel (fuel + 1)).eval (.symbol name pos) env state = .ok v state := by
  simp only [ofFuel,evalStep,Eval.lookup,Eval.readStore,bind,EStateM.bind,found,pure,EStateM.pure]

theorem Evaluator.force_plain {v : Value} (plain : v.kind ≠ .delayed) (fuel : Nat) :
    (ofFuel (fuel + 1)).force v = pure v := by
  cases v with
  | delayed d => contradiction
  | _ => rfl

/-- A call by name applies the value of the name to the operands as they were collected. -/
theorem Evaluator.eval_call {name : String} {op : Value} {args : List Node} {ops : List Operand}
    (found : state.store.lookup env name = some op) (plain : op.kind ≠ .delayed)
    (collected : Operand.collect env args state = .ok ops state) (fuel : Nat)
    (place pos : Position) :
    (ofFuel (fuel + 2)).eval (.list (.symbol name place :: args) pos) env state =
      (ofFuel (fuel + 1)).apply op ops env pos state := by
  have operator := eval_symbol found fuel place
  have forced : (ofFuel (fuel + 1)).force op state = .ok op state := by rw [force_plain plain]; rfl
  change (ofFuel (fuel + 1)).evalStep (.list (.symbol name place :: args) pos) env state = _
  simp only [evalStep,bind,EStateM.bind,operator,forced,collected]

/-- A special form that is called by its name gets its operands as they were collected. -/
theorem Evaluator.eval_form {name : String} {form : SpecialForm} {args : List Node}
    {ops : List Operand} (found : state.store.lookup env name = some (.form form))
    (collected : Operand.collect env args state = .ok ops state) (fuel : Nat)
    (place pos : Position) :
    (ofFuel (fuel + 2)).eval (.list (.symbol name place :: args) pos) env state =
      Eval.traced pos env (form.run (ofFuel (fuel + 1)) ops env pos) state :=
  eval_call found nofun collected fuel place pos

/-- A call whose operator fails does not come to its operands. -/
theorem Evaluator.eval_operator_error {operator : Node} {args : List Node} {fuel : Nat}
    {failure : Failure} {next : State}
    (failed : (ofFuel fuel).eval operator env state = .error failure next) (pos : Position) :
    (ofFuel (fuel + 1)).eval (.list (operator :: args) pos) env state = .error failure next := by
  change (ofFuel fuel).evalStep (.list (operator :: args) pos) env state = _
  simp only [evalStep,bind,EStateM.bind,failed]

/-- A special form whose operands cannot be collected does not come to run. -/
theorem Evaluator.eval_form_error {name : String} {form : SpecialForm} {args : List Node}
    {failure : Failure} {next : State} (found : state.store.lookup env name = some (.form form))
    (failed : Operand.collect env args state = .error failure next) (fuel : Nat)
    (place pos : Position) :
    (ofFuel (fuel + 2)).eval (.list (.symbol name place :: args) pos) env state =
      .error failure next := by
  have operator := eval_symbol found fuel place
  have forced : (ofFuel (fuel + 1)).force (.form form) state = .ok (.form form) state := rfl
  change (ofFuel (fuel + 1)).evalStep (.list (.symbol name place :: args) pos) env state = _
  simp only [evalStep,bind,EStateM.bind,operator,forced,failed]

namespace Operand

theorem collect_cons (n : Node) {rest : List Node}
    (single : ∀ next ∈ rest.head?, next.isEllipsis = false) :
    collect env (n :: rest) = collect env rest >>= fun ops => pure (node n :: ops) := by
  cases n with
  | symbol name pos =>
    cases rest with
    | nil => rfl
    | cons next rest => rw [collect,if_neg (by simp [single next rfl])]
  | _ => rfl

/-- Syntax in front of operands that do not start with an ellipsis is collected as it stands. -/
theorem collect_append {nodes rest : List Node} {ops : List Operand}
    (plain : ∀ n ∈ nodes, n.isEllipsis = false) (next : ∀ n ∈ rest.head?, n.isEllipsis = false)
    (collected : collect env rest state = .ok ops state) :
    collect env (nodes ++ rest) state = .ok (nodes.map node ++ ops) state := by
  induction nodes with
  | nil => exact collected
  | cons n nodes ih =>
    have more := ih fun n mem => plain n (.tail _ mem)
    have single : ∀ m ∈ (nodes ++ rest).head?, m.isEllipsis = false := by
      cases nodes with
      | nil => exact next
      | cons first others => simpa using plain first (.tail _ (.head _))
    rw [List.cons_append,collect_cons n single]
    simp only [bind,EStateM.bind,more]
    rfl

theorem collect_plain {nodes : List Node} (plain : ∀ n ∈ nodes, n.isEllipsis = false) :
    collect env nodes state = .ok (nodes.map node) state := by
  have none : collect env [] state = .ok [] state := rfl
  simpa only [List.append_nil] using collect_append plain (by simp) none

end Operand

/-- Forms of the call itself are a body. -/
theorem SpecialForm.runForms_node (ev : Evaluator) (env : FrameId) (nodes : List Node) :
    runForms ev env (nodes.map .node) = ev.body env nodes := by
  match nodes with
  | [] => rfl
  | [n] => rfl
  | n :: m :: nodes =>
    have rest := runForms_node ev env (m :: nodes)
    simp only [List.map_cons] at rest ⊢
    simp only [runForms,Evaluator.body,rest]
    rfl

/-- Without bindings, the forms are evaluated in a fresh frame and no more. -/
theorem SpecialForm.runLocalBinding_nil (ev : Evaluator) {ops : List Operand} (nonempty : ops ≠ [])
    (place pos : Position) :
    runLocalBinding ev (.node (.list [] place) :: ops) env pos state =
      runForms ev (state.newFrame env).1 ops (state.newFrame env).2 := by
  cases ops with
  | nil => contradiction
  | cons op ops => rfl

/-- A use of a transformer is the body of the first rule that matches, once its variables are
bound. -/
theorem Transformer.apply_rule {t : Transformer} {rule : Rule} {ops : List Operand}
    {caller : FrameId} {captures : List (String × Capture)} {pos : Position} {bound : State}
    (first : t.rules.find? (fun rule => PatternItem.matchesAll rule.pattern ops) = some rule)
    (captured : PatternItem.captures? rule.pattern ops = some captures)
    (binds : Capture.bindAll caller t.env captures
      ⟨state.store,state.tracers.note ⟨.transformer,pos,ops.length⟩⟩ = .ok () bound)
    (ev : Evaluator) :
    ev.apply (.transformer t) ops caller pos state =
      Eval.traced pos caller (ev.body t.env rule.body) bound := by
  have expansion : t.expand ev ops caller pos
      ⟨state.store,state.tracers.note ⟨.transformer,pos,ops.length⟩⟩ = ev.body t.env rule.body bound := by
    simp only [expand,first,captured,bind,EStateM.bind,binds]
  exact Eval.traced_congr expansion pos caller

end MiniScheme
