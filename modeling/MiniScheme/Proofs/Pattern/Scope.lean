import MiniScheme.Proofs.Pattern.Binding

/-! The scope of spliced fragments. A rule that splices a vararg into a special form hands over
fragments that carry the frame of the call, among operands of its own. A form that evaluates them
does so in that frame, but a procedure that is made from them keeps their syntax alone. -/
namespace MiniScheme

/-- Runs computations in order and gives the value of the last. -/
def Eval.inOrder : List (Eval Value) → Eval Value
  | [] => pure .unspecified
  | [x] => x
  | x :: xs => do
    let _ ← x
    inOrder xs

namespace Operand

/-- Operands of a form whose rule has syntax of its own around what it splices in. -/
def around (caller : FrameId) (before nodes after : List Node) : List Operand :=
  before.map node ++ ((nodes.map fun n => deferred ⟨n,caller⟩) ++ after.map node)

/-- An operand evaluated where it belongs: a fragment in its own frame, all else in `env`. -/
def inPlace (fuel : Nat) (env : FrameId) : Operand → Eval Value
  | deferred d => (node d.node).evalForced (.ofFuel fuel) d.env
  | op => op.evalForced (.ofFuel (fuel + 1)) env

theorem evalForced_inPlace (fuel : Nat) (env : FrameId) (op : Operand) :
    op.evalForced (.ofFuel (fuel + 1)) env = op.inPlace fuel env := by
  cases op <;> rfl

theorem node?_around (caller : FrameId) (before nodes after : List Node) :
    (around caller before nodes after).map node? = (before ++ nodes ++ after).map some := by
  simp [around,node?,Function.comp_def]

theorem around_eq_nil {caller : FrameId} {before nodes after : List Node} :
    around caller before nodes after = [] ↔ before ++ nodes ++ after = [] := by
  simp [around]

end Operand

namespace SpecialForm

theorem runSequence_eq (ev : Evaluator) (env : FrameId) (ops : List Operand) :
    runSequence ev env ops = Eval.inOrder (ops.map fun op => op.evalForced ev env) := by
  match ops with
  | [] => rfl
  | [op] => rfl
  | op :: next :: ops =>
    have rest := runSequence_eq ev env (next :: ops)
    simp only [List.map_cons] at rest ⊢
    simp only [runSequence,Eval.inOrder,rest]

theorem runForms_eq (ev : Evaluator) (env : FrameId) (ops : List Operand) :
    runForms ev env ops = Eval.inOrder (ops.map fun op => op.eval ev env) := by
  match ops with
  | [] => rfl
  | [op] => rfl
  | op :: next :: ops =>
    have rest := runForms_eq ev env (next :: ops)
    simp only [List.map_cons] at rest ⊢
    simp only [runForms,Eval.inOrder,rest]

/-- What the test of a conditional selects. Nothing forces it. -/
def select (ev : Evaluator) (env : FrameId) (yes : Operand) (alternative : Option Operand)
    (test : Value) : Eval Value :=
  if test.isTrue then yes.eval ev env
  else (alternative.map fun no => no.eval ev env).getD (pure .unspecified)

theorem runConditional_eq (ev : Evaluator) (env : FrameId) (test yes : Operand)
    (alternative : Option Operand) :
    runConditional ev (test :: yes :: alternative.toList) env =
      test.evalForced ev env >>= select ev env yes alternative := by
  cases alternative <;> rfl

/-- The body of a procedure is the syntax behind its operands, wherever that came from. -/
theorem bodyOf_eq (pos : Position) (env : FrameId) {ops : List Operand} {nodes : List Node}
    (written : ops.map Operand.node? = nodes.map some) : bodyOf pos env ops = pure nodes := by
  induction ops generalizing nodes with
  | nil =>
    cases nodes with
    | nil => rfl
    | cons => contradiction
  | cons op ops ih =>
    cases nodes with
    | nil => contradiction
    | cons n nodes =>
      simp only [List.map_cons,List.cons.injEq] at written
      simp only [bodyOf,nodeOf,written.1,ih written.2,pure_bind]

variable {state : State} {env : FrameId} {pos : Position} {params : Params}

theorem runLambda_body {ops : List Operand} {formals : Node} {nodes : List Node}
    (nonempty : ops ≠ []) (read : Params.ofNode formals = .ok params)
    (written : ops.map Operand.node? = nodes.map some) :
    runLambda (.node formals :: ops) env pos state =
      .ok (.closure ⟨state.store.fresh,params,nodes,env⟩)
        ⟨state.store.nextFresh.2,state.tracers⟩ := by
  cases ops with
  | nil => contradiction
  | cons op ops =>
    simp only [runLambda,nodeOf,Operand.node?,pure_bind,read,bodyOf_eq pos env written]
    rfl

theorem runDefine_body (ev : Evaluator) {ops : List Operand} {signature nodes : List Node}
    {place : Position} {name : String} (nonempty : ops ≠ [])
    (read : Params.signature signature place = .ok (name,params))
    (written : ops.map Operand.node? = nodes.map some) :
    runDefine ev (.node (.list signature place) :: ops) env pos state =
      .ok .unspecified ⟨state.store.nextFresh.2.define env name
        (.closure ⟨state.store.fresh,params,nodes,env⟩),state.tracers⟩ := by
  cases ops with
  | nil => contradiction
  | cons op ops =>
    simp only [runDefine,nodeOf,Operand.node?,pure_bind,read,bodyOf_eq pos env written]
    rfl

end SpecialForm

namespace Transformer

/-- Called with the operands, the transformer takes a rule with a vararg that stands for the nodes,
and whose body is one special form. The form has operands of its own, and the vararg is spliced in
between them. In the state `bound` all variables of the rule are bound. -/
structure Splices (t : Transformer) (state : State) (ops : List Operand) (caller : FrameId)
    (pos : Position) (form : SpecialForm) (before nodes after : List Node) (list : Position)
    (bound : State) : Prop where
  present : (state.store.frame? t.env).isSome
  plain : ∀ n ∈ before ++ after, n.isEllipsis = false
  taken : ∃ pattern captures name operator spot place,
    t.rules.find? (fun rule => PatternItem.matchesAll rule.pattern ops) =
      some ⟨pattern,[.list (.symbol form.name operator :: (before ++
        .symbol name spot :: .symbol Node.ellipsis place :: after)) list]⟩ ∧
    PatternItem.captures? pattern ops = some captures ∧
    Capture.last? captures name = some (.many (nodes.map .node)) ∧ name ≠ Node.ellipsis ∧
    Capture.bindAll caller t.env captures
      ⟨state.store,state.tracers.note ⟨.transformer,pos,ops.length⟩⟩ = .ok () bound
  found : bound.store.lookup t.env form.name = some (.form form)

variable {t : Transformer} {state bound : State} {ops : List Operand} {caller : FrameId}
  {pos list : Position} {before nodes after own : List Node} {form : SpecialForm}

namespace Splices

/-- The form gets its own operands, and the fragments with their frame. -/
theorem apply (splices : t.Splices state ops caller pos form before nodes after list bound)
    (fuel : Nat) :
    (Evaluator.ofFuel (fuel + 2)).apply (.transformer t) ops caller pos state =
      Eval.traced pos caller (Eval.traced list t.env (form.run (.ofFuel (fuel + 1))
        (Operand.around caller before nodes after) t.env list)) bound := by
  obtain ⟨pattern,captures,name,operator,spot,place,first,captured,last,single,binds⟩ := splices.taken
  have means := Capture.bound_of_bindAll binds splices.present
  obtain ⟨v,here,walked⟩ := means.named last
  have spliced : Operand.Spliced bound.store t.env name (nodes.map fun n => .delayed ⟨n,caller⟩) := by
    refine ⟨v,Store.lookup_of_binding? here,?_⟩
    rwa [Capture.Denotes,List.map_map] at walked
  have behind : Operand.collect t.env (.symbol name spot :: .symbol Node.ellipsis place :: after) bound =
      .ok ((nodes.map fun n => .deferred ⟨n,caller⟩) ++ after.map .node) bound := by
    have more : Operand.collect t.env after bound = .ok (after.map .node) bound :=
      Operand.collect_plain fun n mem => splices.plain n (List.mem_append_right before mem)
    rw [Operand.collect_spliced_append spliced spot place more,List.map_map]
    rfl
  have collected : Operand.collect t.env (before ++ .symbol name spot :: .symbol Node.ellipsis place ::
      after) bound = .ok (Operand.around caller before nodes after) bound := by
    refine Operand.collect_append (fun n mem => splices.plain n (List.mem_append_left after mem)) ?_
      behind
    simpa [Node.isEllipsis,Node.name?] using single
  rw [apply_rule first captured binds]
  exact Eval.traced_congr (Evaluator.eval_form splices.found collected fuel operator list) pos caller

/-- A form that gives a value gives it to the caller. -/
theorem value (splices : t.Splices state ops caller pos form before nodes after list bound)
    (fuel : Nat) {v : Value} {next : State}
    (runs : form.run (.ofFuel (fuel + 1)) (Operand.around caller before nodes after) t.env list bound =
      .ok v next) :
    (Evaluator.ofFuel (fuel + 2)).apply (.transformer t) ops caller pos state = .ok v next := by
  rw [splices.apply]
  exact Eval.traced_ok pos (Eval.traced_ok list runs)

theorem localForms {bindings : Node} {locals : List Node}
    (splices : t.Splices state ops caller pos .localBinding (bindings :: own) nodes after list bound)
    (fuel : Nat) (items : bindings.items? = some locals) (nonempty : own ++ nodes ++ after ≠ []) :
    (Evaluator.ofFuel (fuel + 2)).apply (.transformer t) ops caller pos state =
      Eval.traced pos caller (Eval.traced list t.env do
        let inner ← Eval.newChild t.env
        SpecialForm.bindLocals (.ofFuel (fuel + 1)) t.env inner list (locals.map .node)
        Eval.inOrder (own.map (fun n => (Evaluator.ofFuel (fuel + 1)).eval n inner) ++
          ((nodes.map fun n => pure (.delayed ⟨n,caller⟩)) ++
            after.map fun n => (Evaluator.ofFuel (fuel + 1)).eval n inner))) bound := by
  have forms : Operand.around caller own nodes after ≠ [] := mt Operand.around_eq_nil.mp nonempty
  have split : Operand.around caller (bindings :: own) nodes after =
      .node bindings :: Operand.around caller own nodes after := rfl
  rw [splices.apply,split,SpecialForm.run]
  cases body : Operand.around caller own nodes after with
  | nil => contradiction
  | cons op rest =>
    simp only [SpecialForm.runLocalBinding,Operand.children?,items,Option.map_some,
      SpecialForm.runForms_eq,← body,Operand.around,List.map_append,List.map_map]
    rfl

theorem procedure {formals : Node} {params : Params}
    (splices : t.Splices state ops caller pos .lambda (formals :: own) nodes after list bound)
    (fuel : Nat) (nonempty : own ++ nodes ++ after ≠ [])
    (read : Params.ofNode formals = .ok params) :
    (Evaluator.ofFuel (fuel + 2)).apply (.transformer t) ops caller pos state =
      .ok (.closure ⟨bound.store.fresh,params,own ++ nodes ++ after,t.env⟩)
        ⟨bound.store.nextFresh.2,bound.tracers⟩ :=
  splices.value fuel (SpecialForm.runLambda_body (mt Operand.around_eq_nil.mp nonempty) read
    (Operand.node?_around caller own nodes after))

theorem definition {signature : List Node} {place : Position} {procedure : String}
    {params : Params}
    (splices : t.Splices state ops caller pos .define (.list signature place :: own) nodes after list
      bound) (fuel : Nat) (nonempty : own ++ nodes ++ after ≠ [])
    (read : Params.signature signature place = .ok (procedure,params)) :
    (Evaluator.ofFuel (fuel + 2)).apply (.transformer t) ops caller pos state =
      .ok .unspecified ⟨bound.store.nextFresh.2.define t.env procedure
        (.closure ⟨bound.store.fresh,params,own ++ nodes ++ after,t.env⟩),bound.tracers⟩ :=
  splices.value fuel (SpecialForm.runDefine_body _ (mt Operand.around_eq_nil.mp nonempty) read
    (Operand.node?_around caller own nodes after))

end Splices

/-- Where spliced fragments are evaluated. A sequence runs them in the frame of the call, between
operands of its own that it runs in the frame of the transformer, and so does a conditional with its
test; a branch, and a form of a block of local bindings, are given back as fragments of the frame of
the call, in which they are forced. A procedure that is made from fragments, by itself or by a
definition, has the frame of the transformer instead: it is the one that the call site would have
made only if that is the frame of the call. -/
theorem spliced_scope
    (splices : t.Splices state ops caller pos form before nodes after list bound) (fuel : Nat) :
    (form = .sequence →
      (Evaluator.ofFuel (fuel + 2)).apply (.transformer t) ops caller pos state =
        Eval.traced pos caller (Eval.traced list t.env (Eval.inOrder
          ((Operand.around caller before nodes after).map (Operand.inPlace fuel t.env)))) bound) ∧
    (∀ test yes alternative, form = .conditional →
      Operand.around caller before nodes after = test :: yes :: Option.toList alternative →
      (Evaluator.ofFuel (fuel + 2)).apply (.transformer t) ops caller pos state =
        Eval.traced pos caller (Eval.traced list t.env (test.inPlace fuel t.env >>=
          SpecialForm.select (.ofFuel (fuel + 1)) t.env yes alternative)) bound) ∧
    (∀ bindings own locals, form = .localBinding → before = bindings :: own →
      bindings.items? = some locals → own ++ nodes ++ after ≠ [] →
      (Evaluator.ofFuel (fuel + 2)).apply (.transformer t) ops caller pos state =
        Eval.traced pos caller (Eval.traced list t.env do
          let inner ← Eval.newChild t.env
          SpecialForm.bindLocals (.ofFuel (fuel + 1)) t.env inner list (locals.map .node)
          Eval.inOrder (own.map (fun n => (Evaluator.ofFuel (fuel + 1)).eval n inner) ++
            ((nodes.map fun n => pure (.delayed ⟨n,caller⟩)) ++
              after.map fun n => (Evaluator.ofFuel (fuel + 1)).eval n inner))) bound) ∧
    (∀ formals own params, form = .lambda → before = formals :: own →
      own ++ nodes ++ after ≠ [] → Params.ofNode formals = .ok params →
      (Evaluator.ofFuel (fuel + 2)).apply (.transformer t) ops caller pos state =
        .ok (.closure ⟨bound.store.fresh,params,own ++ nodes ++ after,t.env⟩)
          ⟨bound.store.nextFresh.2,bound.tracers⟩ ∧
      ((Evaluator.ofFuel (fuel + 2)).apply (.transformer t) ops caller pos state =
        SpecialForm.runLambda (.node formals :: (own ++ nodes ++ after).map .node) caller list bound ↔
          t.env = caller)) ∧
    ∀ signature place own procedure params, form = .define →
      before = .list signature place :: own → own ++ nodes ++ after ≠ [] →
      Params.signature signature place = .ok (procedure,params) →
      (Evaluator.ofFuel (fuel + 2)).apply (.transformer t) ops caller pos state =
        .ok .unspecified ⟨bound.store.nextFresh.2.define t.env procedure
          (.closure ⟨bound.store.fresh,params,own ++ nodes ++ after,t.env⟩),bound.tracers⟩ := by
  refine ⟨?_,?_,?_,?_,?_⟩
  · rintro rfl
    rw [splices.apply,SpecialForm.run,SpecialForm.runSequence_eq]
    simp only [Operand.evalForced_inPlace]
  · rintro test yes alternative rfl operands
    rw [splices.apply,SpecialForm.run,operands,SpecialForm.runConditional_eq,
      Operand.evalForced_inPlace]
  · rintro bindings own locals rfl rfl items nonempty
    exact splices.localForms fuel items nonempty
  · rintro formals own params rfl rfl nonempty read
    have written : ((own ++ nodes ++ after).map Operand.node).map Operand.node? =
        (own ++ nodes ++ after).map some := List.map_map
    refine ⟨splices.procedure fuel nonempty read,?_⟩
    rw [splices.procedure fuel nonempty read,
      SpecialForm.runLambda_body (mt List.map_eq_nil_iff.mp nonempty) read written]
    constructor
    · intro same
      simpa using same
    · rintro rfl
      rfl
  · rintro signature place own procedure params rfl rfl nonempty read
    exact splices.definition fuel nonempty read

/-- Fragments of an inner frame, spliced behind a form of its own into a procedure by a transformer
of the outermost frame. The rule has another variable as well. -/
theorem spliced_scope_outermost :
    ∃ next, (Evaluator.ofFuel 2).apply (.transformer ⟨0,[⟨[.atom "a",.vararg "x"],
        [.list [.symbol "lambda" .nowhere,.list [] .nowhere,.symbol "a" .nowhere,
          .symbol "x" .nowhere,.symbol Node.ellipsis .nowhere] .nowhere]⟩],Global.frame⟩)
      [.node (.boolean true .nowhere),.node (.symbol "y" .nowhere)] ⟨1⟩ .nowhere
      ⟨⟨#[⟨none,Global.bindings⟩,⟨some Global.frame,[("y",.boolean true)]⟩],#[],#[],1⟩,.none⟩ =
        .ok (.closure ⟨1,⟨[],none⟩,[.symbol "a" .nowhere,.symbol "y" .nowhere],Global.frame⟩)
          next := by
  have splices : Splices ⟨0,[⟨[.atom "a",.vararg "x"],[.list [.symbol "lambda" .nowhere,
      .list [] .nowhere,.symbol "a" .nowhere,.symbol "x" .nowhere,.symbol Node.ellipsis .nowhere]
        .nowhere]⟩],Global.frame⟩
      ⟨⟨#[⟨none,Global.bindings⟩,⟨some Global.frame,[("y",.boolean true)]⟩],#[],#[],1⟩,.none⟩
      [.node (.boolean true .nowhere),.node (.symbol "y" .nowhere)] ⟨1⟩ .nowhere .lambda
      [.list [] .nowhere,.symbol "a" .nowhere] [.symbol "y" .nowhere] [] .nowhere _ :=
    ⟨rfl,by simp [Node.isEllipsis,Node.name?,Node.ellipsis],
      ⟨_,_,"x",_,_,_,rfl,rfl,rfl,by decide,rfl⟩,rfl⟩
  have call := (spliced_scope splices 0).2.2.2.1 _ _ ⟨[],none⟩ rfl rfl (List.cons_ne_nil _ _) rfl
  exact ⟨_,call.1⟩

/-- The argument of the enclosing procedure is not found by a procedure made from a fragment, and is
found by a sequence. -/
theorem argument_out_of_scope :
    (match evaluate (.ofFuel ampleFuel) ("(define-syntax m (syntax-rules () ((_ x ...) " ++
        "(lambda () x ...)))) (define (f y) (m y)) ((f 5))") none Global.frame .initial with
      | .error (.running e) _ => some e.fault
      | _ => none) = some (.unboundVariable "y") ∧
    (match evaluate (.ofFuel ampleFuel) ("(define-syntax m (syntax-rules () ((_ x ...) " ++
        "(begin x ...)))) (define (f y) (m y)) (f 5)") none Global.frame .initial with
      | .ok (.number (.integer i)) _ => some i
      | _ => none) = some 5 := by
  decide +kernel

end Transformer
end MiniScheme
