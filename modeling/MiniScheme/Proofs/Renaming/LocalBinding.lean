import MiniScheme.Proofs.Pattern.Expansion
import MiniScheme.Proofs.Renaming.Order

/-! Local bindings as calls. A block of local bindings makes its frame and then evaluates the
initialisers, one by one, into it. A call of the procedure with the same names and body makes the
procedure, evaluates the same initialisers as arguments, and makes the frame last. But for the numbers
of what is new, both come to the same. -/
namespace MiniScheme

open Eval

/-- A name and the initialiser that gives its value, with the places of the two together and of the
name, as it stands in a block and among parameters. -/
structure Local where
  name : String
  init : Node
  whole : Position
  inBlock : Position
  inParams : Position

namespace Local

/-- The name and the initialiser in a block of local bindings. -/
def binding (l : Local) : Node := .list [.symbol l.name l.inBlock,l.init] l.whole

/-- The name among the parameters of a procedure. -/
def formal (l : Local) : Node := .symbol l.name l.inParams

/-- The initialiser among the operands of a call. -/
def operand (l : Local) : Operand := .node l.init

end Local

/-- Local names and the forms that use them. -/
structure Block where
  locals : List Local
  body : List Node

namespace Block

/-- The block as a form of its own. -/
def letForm (b : Block) (operator list pos : Position) : Node :=
  .list (.symbol "let" operator :: .list (b.locals.map Local.binding) list :: b.body) pos

/-- The procedure with the names as its parameters. -/
def lambdaForm (b : Block) (operator list pos : Position) : Node :=
  .list (.symbol "lambda" operator :: .list (b.locals.map Local.formal) list :: b.body) pos

/-- The call of the procedure with the initialisers. -/
def callForm (b : Block) (operator list procedure pos : Position) : Node :=
  .list (b.lambdaForm operator list procedure :: b.locals.map Local.init) pos

end Block

/-- An operand that is syntax of the call itself, and was not spliced in. -/
def Operand.IsForm : Operand → Prop
  | node _ => True
  | deferred _ | value _ => False

/-- The two words have their built-in meaning, no initialiser is an ellipsis, and no elements of a list
are spliced into the body. -/
structure Block.Plain (b : Block) (env : FrameId) (state : State) : Prop where
  lets : state.store.lookup env "let" = some (.form .localBinding)
  lambdas : state.store.lookup env "lambda" = some (.form .lambda)
  inits : ∀ l ∈ b.locals, l.init.isEllipsis = false
  body : ∀ ops next, Operand.collect env b.body state = .ok ops next → ∀ op ∈ ops, op.IsForm

variable {state : State} {env : FrameId}

/-- The computation changes nothing. -/
def Eval.Idle {α : Type} (x : Eval α) : Prop := ∀ state, x.after state = state

namespace Eval.Idle

variable {α β : Type}

theorem pure (a : α) : Idle (Pure.pure a) := fun _ => rfl

theorem throw (failure : Failure) : Idle (MonadExcept.throw failure : Eval α) := fun _ => rfl

theorem readStore (f : Store → α) : Idle (Eval.readStore f) := fun _ => rfl

theorem bind {x : Eval α} {f : α → Eval β} (first : Idle x) (next : ∀ a, Idle (f a)) :
    Idle (x >>= f) := by
  intro state
  have start := first state
  simp only [Eval.after,Bind.bind,EStateM.bind] at start ⊢
  generalize x state = outcome at start ⊢
  cases outcome with
  | ok a middle => exact (next a middle).trans start
  | error failure middle => exact start

theorem traced {x : Eval α} (pos : Position) (env : FrameId) (inside : Idle x) :
    Idle (Eval.traced pos env x) := by
  intro state
  have start := inside state
  simp only [Eval.after,Eval.traced] at start ⊢
  generalize x state = outcome at start ⊢
  cases outcome <;> exact start

theorem lookup (name : String) (pos : Position) (env : FrameId) : Idle (Eval.lookup name pos env) := by
  refine bind (readStore _) fun found => ?_
  cases found with
  | some v => exact pure v
  | none => exact throw _

end Eval.Idle

namespace Operand

theorem eq_map_node {ops : List Operand} (forms : ∀ op ∈ ops, op.IsForm) :
    ∃ nodes : List Node, ops = nodes.map node := by
  induction ops with
  | nil => exact ⟨[],rfl⟩
  | cons op ops ih =>
    obtain ⟨first,rest⟩ := List.forall_mem_cons.mp forms
    obtain ⟨nodes,rfl⟩ := ih rest
    cases op with
    | node n => exact ⟨n :: nodes,rfl⟩
    | deferred | value => contradiction

theorem collect_idle (env : FrameId) (nodes : List Node) : Idle (collect env nodes) := by
  have spliced (name : String) (pos : Position) : Idle (splice name pos env) := by
    refine .bind (.lookup name pos env) fun list => .bind (.readStore _) ?_
    rintro ⟨values,last⟩
    cases last with
    | nil => exact .pure _
    | pair => exact .throw _
    | unspecified | boolean | char | string | symbol | number | vector | closure | transformer
    | delayed | primitive | form => exact .traced pos env (.throw _)
  fun_induction collect env nodes with
  | case1 name pos next rest ellipsis ih =>
    exact .bind (spliced name pos) fun _ => .bind ih fun _ => .pure _
  | case2 name pos next rest plain ih => exact .bind ih fun _ => .pure _
  | case3 n rest single ih => exact .bind ih fun _ => .pure _
  | case4 => exact .pure _

theorem collect_list (items : List Node) (pos : Position) {rest : List Node} {ops : List Operand}
    (collected : collect env rest state = .ok ops state) :
    collect env (.list items pos :: rest) state = .ok (node (.list items pos) :: ops) state := by
  simp only [collect,bind,EStateM.bind,collected]
  rfl

end Operand

/-! Procedures. -/

theorem Params.ofNode_formals (locals : List Local) (pos : Position) :
    Params.ofNode (.list (locals.map Local.formal) pos) = .ok ⟨locals.map Local.name,none⟩ := by
  have items : Params.items pos (locals.map Local.formal) = .ok ⟨locals.map Local.name,none⟩ := by
    induction locals with
    | nil => rfl
    | cons l locals ih =>
      simp only [List.map_cons,Local.formal,Params.items] at ih ⊢
      rw [ih]
      rfl
  simp only [Params.ofNode,Params.ofItems,items,bind,Except.bind,Option.isSome_none,Bool.and_false]
  rfl

theorem SpecialForm.bodyOf_node (env : FrameId) (pos : Position) (nodes : List Node) :
    bodyOf pos env (nodes.map .node) = pure nodes := by
  induction nodes with
  | nil => rfl
  | cons n nodes ih =>
    simp only [List.map_cons,bodyOf,ih]
    rfl

/-- Names are bound one after the other. -/
theorem Closure.bindFixed_eq (env : FrameId) (names : List String) (args : List Value) (store : Store)
    (tracers : Tracers) : bindFixed env names args ⟨store,tracers⟩ =
      .ok () ⟨store.defineAll env (names.zip args),tracers⟩ := by
  induction names generalizing args store with
  | nil => rfl
  | cons name names ih =>
    cases args with
    | nil => rfl
    | cons arg args => exact ih args (store.define env name arg)

/-- A call with as many arguments as there are names runs the body in a frame that binds them. -/
theorem Closure.call_fixed {c : Closure} {names : List String} (params : c.params = ⟨names,none⟩)
    (ev : Evaluator) {args : List Value} (length : args.length = names.length) (pos : Position)
    (store : Store) (tracers : Tracers) :
    c.call ev args pos ⟨store,tracers⟩ = ev.body ⟨store.frames.size⟩ c.body
      ⟨(store.newFrame (some c.env)).2.defineAll ⟨store.frames.size⟩ (names.zip args),
        tracers.note ⟨.closure,pos,args.length⟩⟩ := by
  simp only [call,bindParams,params,if_pos length,bind,EStateM.bind,Eval.newChild,Eval.onStore,Eval.note,
    bindFixed_eq]
  rfl

/-! Initialisers. -/

/-- What binding the names in a frame aside comes to, beside what evaluating the initialisers does. -/
inductive Outcome.Binds (n limit : Nat) (frame : Frame) (names : List String) :
    Outcome (List Value) → Outcome Unit → Prop where
  | ok {args : List Value} {s t : State} : args.length = names.length →
      (Mirror.beside n limit (frame.defineAll (names.zip args))).Shows s.store t.store →
      Binds n limit frame names (.ok args s) (.ok () t)
  | error {failure other : Failure} {s t : State} : other.cause = failure.cause →
      Binds n limit frame names (.error failure s) (.error other t)

/-- The second computation binds in the frame `n` what the first one gives. -/
structure Eval.Binds (n limit : Nat) (names : List String) (x : Eval (List Value)) (y : Eval Unit) :
    Prop where
  older (s : State) : s.store.Older (x.after s).store
  shows (frame : Frame) (s t : State) : (Mirror.beside n limit frame).Shows s.store t.store →
    (Mirror.beside n limit frame).Admits (x.after s).store →
    Outcome.Binds n limit frame names (x s) (y t)

/-- One value more, which is bound before the others are there. -/
theorem Eval.Binds.cons {n limit : Nat} {names : List String} {x y : Eval Value}
    {xs : Eval (List Value)} {ys : Eval Unit} (name : String)
    (first : ∀ frame, Eval.Mirrors (.beside n limit frame) (Mirror.beside n limit frame).value x y)
    (rest : Binds n limit names xs ys) :
    Binds n limit (name :: names) (do return (← x) :: (← xs))
      (do let v ← y; Eval.define ⟨n⟩ name v; ys) := by
  have listed (v : Value) (s : State) :
      (xs.after s).store.Older ((do return v :: (← xs) : Eval (List Value)).after s).store :=
    Eval.older_bind (f := fun args => pure (v :: args)) (fun _ t => .refl t.store) s
  have later (v : Value) (s : State) :
      s.store.Older ((do return v :: (← xs) : Eval (List Value)).after s).store :=
    (rest.older s).trans (listed v s)
  constructor
  · intro s
    exact ((first default).older s).trans (Eval.older_bind later s)
  · intro frame s t shows admits
    have start := (first frame).shows shows (admits.of_older (Eval.older_bind later s))
    simp only [Eval.after,bind,EStateM.bind] at start admits ⊢
    generalize x s = left,y t = right at start admits ⊢
    cases start with
    | error => exact .error (Failure.cause_rename _ _)
    | @ok v middle other shows =>
      have admitted : (Mirror.beside n limit (frame.define name v)).Admits (xs.after middle).store :=
        Mirror.Admits.of_older ⟨admits.parents,admits.fresh⟩ (listed v middle)
      have bound := rest.shows (frame.define name v) middle
        ⟨other.store.define ⟨n⟩ name ((Mirror.beside n limit frame).value v),other.tracers⟩
        (shows.defineBeside name v) admitted
      dsimp only [Eval.define,Eval.changeStore]
      generalize xs middle = values,ys _ = done at bound ⊢
      cases bound with
      | error cause => exact .error cause
      | ok length shows => exact .ok (congrArg Nat.succ length) shows

/-- Each initialiser is evaluated in the mirror, and its value is bound in the frame aside. -/
theorem SpecialForm.bindLocals_binds {n : Nat} (limit fuel : Nat) (inside : env.Within n)
    (pos : Position) (locals : List Local) :
    Eval.Binds n limit (locals.map Local.name)
      (Operand.evalAll (.ofFuel fuel) env (locals.map Local.operand))
      (bindLocals (.ofFuel fuel) env ⟨n⟩ pos (locals.map fun l => .node l.binding)) := by
  induction locals with
  | nil => exact ⟨fun s => .refl s.store,fun _ _ _ shows _ => .ok rfl shows⟩
  | cons l locals ih =>
    refine .cons l.name (fun frame => ?_) ih
    have outer : (Mirror.beside n limit frame).frame env = env :=
      congrArg FrameId.mk (skip_of_lt inside)
    have first := Operand.evalForced_mirrors (Evaluator.ofFuel_mirrors (.beside n limit frame) fuel) env
      l.operand
    rwa [outer] at first

/-- A block makes its frame, binds the names there and runs its body. -/
theorem SpecialForm.runLocalBinding_block (b : Block) (nonempty : b.body ≠ []) (ev : Evaluator)
    (list place : Position) (store : Store) (tracers : Tracers) :
    runLocalBinding ev (.node (.list (b.locals.map Local.binding) list) :: b.body.map .node) env place
        ⟨store,tracers⟩ =
      (bindLocals ev env ⟨store.frames.size⟩ place (b.locals.map fun l => .node l.binding) >>=
        fun _ => ev.body ⟨store.frames.size⟩ b.body) ⟨(store.newFrame (some env)).2,tracers⟩ := by
  obtain ⟨locals,body⟩ := b
  cases body with
  | nil => contradiction
  | cons form forms =>
    have children : (Operand.node (.list (locals.map Local.binding) list)).children? =
        some (locals.map fun l => .node l.binding) := by
      simp [Operand.children?,Node.items?]
    rw [← runForms_node]
    simp only [runLocalBinding,List.map_cons,children]
    rfl

namespace Block

variable (b : Block)

/-- The procedure with the names as its parameters, under some number. -/
def procedure (number : Nat) (env : FrameId) : Closure :=
  ⟨number,⟨b.locals.map Local.name,none⟩,b.body,env⟩

/-- The call of the procedure, which was there before. -/
def run (ev : Evaluator) (number : Nat) (env : FrameId) (pos : Position) : Eval Value := do
  let args ← Operand.evalAll ev env (b.locals.map Local.operand)
  (b.procedure number env).call ev args pos

variable (fuel number : Nat) (pos : Position)

theorem operands_within (n : Nat) : Operand.WithinAll n (b.locals.map Local.operand) := by
  intro op member
  obtain ⟨l,-,rfl⟩ := List.mem_map.mp member
  trivial

theorem run_grounded (grounded : state.store.Grounded) (inside : env.Within state.store.frames.size) :
    ((b.run (.ofFuel fuel) number env pos).after state).store.Grounded := by
  have keeps := Evaluator.ofFuel_keeps fuel
  have kept : Eval.Keeps state.store.frames.size Value.Within (b.run (.ofFuel fuel) number env pos) :=
    .bind (Operand.evalAll_keeps keeps inside (b.operands_within _)) fun le args =>
      Closure.call_keeps keeps pos (inside.mono le) args
  exact (kept state grounded (Nat.le_refl _)).after.grounded

/-- A number that is given out before the call makes no difference to it. -/
theorem run_numbered (wellFormed : state.store.WellFormed)
    (inside : env.Within state.store.frames.size) :
    Outcome.Same state.store (b.run (.ofFuel fuel) number env pos state)
      (b.run (.ofFuel fuel) number env pos ⟨state.store.nextFresh.2,state.tracers⟩) := by
  -- the mirror moves the numbers that the call gives out, and the one behind them comes first
  let fresh := state.store.fresh
  let final := ((b.run (.ofFuel fuel) number env pos).after state).store
  let m := Mirror.renumbering (rotate_bijective fresh final.fresh).injective final.fresh
  have mirrors := Evaluator.ofFuel_mirrors m fuel
  have keeps : m.toRenaming.Keeps state.store :=
    ⟨Function.bijective_id,rotate_bijective fresh final.fresh,fun _ => rfl,rotate_of_lt⟩
  have shows : m.Shows state.store state.store.nextFresh.2 := by
    refine wellFormed.toGrounded.shows_renumbering _
      (fun holds => (wellFormed.numbers holds).fixed rotate_of_lt) fun {k} below => ?_
    rw [rotate_eq_skip below,skip_of_le (Nat.le_add_right _ _)]
    omega
  have same : (b.locals.map Local.operand).map m.operand = b.locals.map Local.operand := by
    simp [Local.operand,Operand.rename]
  have run : Eval.Mirrors m m.value (b.run (.ofFuel fuel) number env pos)
      (b.run (.ofFuel fuel) number env pos) := by
    have args := Operand.evalAll_mirrors mirrors env (b.locals.map Local.operand)
    rw [same] at args
    exact .bind args fun args => (b.procedure number env).call_mirrors mirrors number args
  have grounded := b.run_grounded fuel number pos wellFormed.toGrounded inside
  exact (run.shows shows ⟨grounded.parents,Nat.le_refl _⟩).same keeps

/-- Once the initialisers are evaluated, the call makes the frame that the block has aside. -/
theorem call_early {old : Store} {limit : Nat} {args : List Value} {s t : State}
    (length : args.length = (b.locals.map Local.name).length) (grounded : s.store.Grounded)
    (within : Value.WithinAll s.store.frames.size args) (inside : env.Within old.frames.size)
    (le : old.frames.size ≤ s.store.frames.size)
    (shows : (Mirror.beside old.frames.size limit
      (Frame.defineAll ⟨some env,[]⟩ ((b.locals.map Local.name).zip args))).Shows s.store t.store)
    (admits : (Mirror.early old.frames.size s.store.frames.size limit).Admits
      (((b.procedure number env).call (.ofFuel fuel) args pos).after s).store) :
    Outcome.Same old ((b.procedure number env).call (.ofFuel fuel) args pos s)
      ((Evaluator.ofFuel fuel).body ⟨old.frames.size⟩ b.body t) := by
  obtain ⟨store,tracers⟩ := s
  let m := Mirror.early old.frames.size store.frames.size limit
  have bound : ∀ v ∈ ((b.locals.map Local.name).zip args).map Prod.snd, v.Within store.frames.size := by
    rw [List.map_snd_zip (Nat.le_of_eq length)]
    exact within
  have entered := shows.enter (grounded.entered env bound) le (Frame.parent_defineAll _ _) inside
  have made : m.frame ⟨store.frames.size⟩ = ⟨old.frames.size⟩ := congrArg FrameId.mk (rotate_high le)
  have body := (Evaluator.ofFuel_mirrors m fuel).body ⟨store.frames.size⟩ b.body
  rw [made] at body
  have call := Closure.call_fixed (c := b.procedure number env) rfl (.ofFuel fuel) length pos store tracers
  rw [Eval.after,call] at admits
  rw [call]
  exact (body.shows entered admits).same (Mirror.early_keeps _ _ (Nat.le_refl _))

/-- The frame of a block is that of the call, made early. -/
theorem run_early (grounded : state.store.Grounded) (inside : env.Within state.store.frames.size)
    (nonempty : b.body ≠ []) (list place : Position) :
    Outcome.Same state.store (b.run (.ofFuel fuel) number env pos state)
      (SpecialForm.runLocalBinding (.ofFuel fuel)
        (.node (.list (b.locals.map Local.binding) list) :: b.body.map .node) env place state) := by
  obtain ⟨store,tracers⟩ := state
  let final := ((b.run (.ofFuel fuel) number env pos).after ⟨store,tracers⟩).store
  have ended : final.Grounded := b.run_grounded fuel number pos grounded inside
  have called (args : List Value) (s : State) :
      s.store.Older (((b.procedure number env).call (.ofFuel fuel) args pos).after s).store :=
    (Closure.call_mirrors (Evaluator.ofFuel_mirrors (.skipping 0) fuel) _ number args).older s
  have kept := Operand.evalAll_keeps (Evaluator.ofFuel_keeps fuel) inside (b.operands_within _)
    ⟨store,tracers⟩ grounded (Nat.le_refl _)
  have bound := (SpecialForm.bindLocals_binds final.fresh fuel inside place b.locals).shows
    ⟨some env,[]⟩ ⟨store,tracers⟩ ⟨(store.newFrame (some env)).2,tracers⟩
    (Mirror.shows_beside grounded final.fresh inside)
    (Mirror.Admits.of_older ⟨ended.parents,Nat.le_refl _⟩ (Eval.older_bind called _))
  rw [SpecialForm.runLocalBinding_block b nonempty]
  simp only [final,run,Eval.after,bind,EStateM.bind] at ended bound ⊢
  generalize Operand.evalAll (.ofFuel fuel) env (b.locals.map Local.operand) ⟨store,tracers⟩ = args,
    SpecialForm.bindLocals (.ofFuel fuel) env ⟨store.frames.size⟩ place
      (b.locals.map fun l => .node l.binding) ⟨(store.newFrame (some env)).2,tracers⟩ = done
    at kept ended bound ⊢
  cases bound with
  | error cause => exact .error cause
  | @ok args s t length shows =>
    cases kept with
    | ok leads within =>
      exact b.call_early fuel number pos length leads.grounded within inside leads.size shows
        ⟨ended.parents,Nat.le_refl _⟩

/-! The forms. -/

section Forms

variable {nodes : List Node} (operator list place : Position)

theorem runLambda_forms (nonempty : nodes ≠ []) (store : Store) (tracers : Tracers) :
    SpecialForm.runLambda (.node (.list (b.locals.map Local.formal) list) :: nodes.map .node) env place
        ⟨store,tracers⟩ =
      .ok (.closure (procedure ⟨b.locals,nodes⟩ store.fresh env)) ⟨store.nextFresh.2,tracers⟩ := by
  cases nodes with
  | nil => contradiction
  | cons n nodes =>
    have body := SpecialForm.bodyOf_node env place (n :: nodes)
    simp only [List.map_cons] at body
    simp only [SpecialForm.runLambda,List.map_cons,SpecialForm.nodeOf,Operand.node?,bind,EStateM.bind,
      pure,EStateM.pure,Params.ofNode_formals,Eval.ofSyntax,body]
    rfl

variable (lets : state.store.lookup env "let" = some (.form .localBinding))
  (lambdas : state.store.lookup env "lambda" = some (.form .lambda))

include lets in
theorem eval_letForm (collected : Operand.collect env b.body state = .ok (nodes.map .node) state) :
    (Evaluator.ofFuel (fuel + 2)).eval (b.letForm operator list pos) env state =
      Eval.traced pos env (SpecialForm.runLocalBinding (.ofFuel (fuel + 1))
        (.node (.list (b.locals.map Local.binding) list) :: nodes.map .node) env pos) state :=
  Evaluator.eval_form lets (Operand.collect_list _ list collected) fuel operator pos

include lambdas in
theorem eval_lambdaForm (collected : Operand.collect env b.body state = .ok (nodes.map .node) state) :
    (Evaluator.ofFuel (fuel + 2)).eval (b.lambdaForm operator list pos) env state =
      Eval.traced pos env (SpecialForm.runLambda
        (.node (.list (b.locals.map Local.formal) list) :: nodes.map .node) env pos) state :=
  Evaluator.eval_form lambdas (Operand.collect_list _ list collected) fuel operator pos

include lambdas in
/-- The procedure gets the next number and is called. -/
theorem eval_callForm (inits : ∀ l ∈ b.locals, l.init.isEllipsis = false)
    (collected : Operand.collect env b.body state = .ok (nodes.map .node) state)
    (nonempty : nodes ≠ []) :
    (Evaluator.ofFuel (fuel + 3)).eval (b.callForm operator list place pos) env state =
      Eval.traced pos env (run ⟨b.locals,nodes⟩ (.ofFuel (fuel + 2)) state.store.fresh env pos)
        ⟨state.store.nextFresh.2,state.tracers⟩ := by
  obtain ⟨store,tracers⟩ := state
  let c := procedure ⟨b.locals,nodes⟩ store.fresh env
  have made : (Evaluator.ofFuel (fuel + 2)).eval (b.lambdaForm operator list place) env ⟨store,tracers⟩ =
      .ok (.closure c) ⟨store.nextFresh.2,tracers⟩ := by
    rw [b.eval_lambdaForm fuel place operator list lambdas collected]
    exact Eval.traced_ok place (b.runLambda_forms list place nonempty store tracers)
  have operands : Operand.collect env (b.locals.map Local.init) ⟨store.nextFresh.2,tracers⟩ =
      .ok (b.locals.map Local.operand) ⟨store.nextFresh.2,tracers⟩ := by
    have all : ∀ n ∈ b.locals.map Local.init, n.isEllipsis = false := by
      intro n member
      obtain ⟨l,inside,rfl⟩ := List.mem_map.mp member
      exact inits l inside
    rw [Operand.collect_plain all,List.map_map]
    rfl
  have forced (s : State) : (Evaluator.ofFuel (fuel + 2)).force (.closure c) s = .ok (.closure c) s := rfl
  change (Evaluator.ofFuel (fuel + 2)).evalStep (b.callForm operator list place pos) env _ = _
  simp only [callForm,Evaluator.evalStep,bind,EStateM.bind,made,forced,operands]
  rfl

end Forms

/-- At every depth the two forms come to the same. -/
theorem eval_same (wellFormed : state.store.WellFormed) (inside : env.Within state.store.frames.size)
    (plain : b.Plain env state) (letWord letList letPos word list procedure : Position) :
    Outcome.Same state.store
      ((Evaluator.ofFuel (fuel + 3)).eval (b.letForm letWord letList letPos) env state)
      ((Evaluator.ofFuel (fuel + 3)).eval (b.callForm word list procedure pos) env state) := by
  -- both forms collect the operands of the body first, from the same state
  cases collected : Operand.collect env b.body state with
  | error failure next =>
    have failed (items : List Node) (spot : Position) :
        Operand.collect env (.list items spot :: b.body) state = .error failure next := by
      simp only [Operand.collect,bind,EStateM.bind,collected]
    have stopped := Evaluator.eval_form_error plain.lambdas (failed (b.locals.map Local.formal) list) fuel
      word procedure
    rw [letForm,callForm,lambdaForm,
      Evaluator.eval_form_error plain.lets (failed _ letList) (fuel + 1) letWord letPos,
      Evaluator.eval_operator_error stopped pos]
    exact .error rfl
  | ok ops next =>
    have idle := Operand.collect_idle env b.body state
    rw [Eval.after,collected] at idle
    subst idle
    obtain ⟨nodes,rfl⟩ := Operand.eq_map_node (plain.body ops next collected)
    rw [b.eval_letForm (fuel + 1) letPos letWord letList plain.lets collected]
    by_cases empty : nodes = []
    · subst empty
      let failure : Failure := .running (.ofFault (.missingArgsAtLeast 2 1))
      have stopped : (Evaluator.ofFuel (fuel + 2)).eval (b.lambdaForm word list procedure) env next =
          .error (failure.passThrough procedure env) next :=
        (b.eval_lambdaForm fuel procedure word list plain.lambdas collected).trans rfl
      rw [callForm,Evaluator.eval_operator_error stopped pos]
      change Outcome.Same _ (.error (failure.passThrough letPos env) next) _
      exact .error (by rw [Failure.cause_passThrough,Failure.cause_passThrough])
    · rw [b.eval_callForm fuel pos word list procedure plain.lambdas plain.inits collected empty]
      -- both are compared with a call of a procedure that takes no number
      let block : Block := ⟨b.locals,nodes⟩
      have early := block.run_early (fuel + 2) next.store.fresh pos wellFormed.toGrounded inside empty
        letList letPos
      have numbered := block.run_numbered (fuel + 2) next.store.fresh pos wellFormed inside
      exact (early.euclid numbered).traced letPos pos env env

end Block

/-- A block of local bindings is a call of the procedure with the same names and body. One ends if and
only if the other does. They come to the same value and the same store but for the numbers of frames
and procedures that are new, or fail for the same cause. Every state that a session comes to is
well-formed. -/
theorem Block.let_is_call (b : Block) (wellFormed : state.store.WellFormed)
    (inside : env.Within state.store.frames.size) (plain : b.Plain env state)
    (letWord letList letPos word list procedure pos : Position) :
    (∀ outcome, Converges (fun ev => ev.eval (b.letForm letWord letList letPos) env) state outcome →
      ∃ other, Converges (fun ev => ev.eval (b.callForm word list procedure pos) env) state other ∧
        Outcome.Same state.store outcome other) ∧
    ∀ other, Converges (fun ev => ev.eval (b.callForm word list procedure pos) env) state other →
      ∃ outcome, Converges (fun ev => ev.eval (b.letForm letWord letList letPos) env) state outcome ∧
        Outcome.Same state.store outcome other := by
  have same (fuel : Nat) := b.eval_same fuel pos wellFormed inside plain letWord letList letPos word list
    procedure
  refine ⟨fun outcome ends => ?_,fun other ends => ?_⟩
  · exact ends.related (fun same => same.final_iff.mp) (eval_stable _ env) 3 same
  · exact ends.related (R := fun y x => Outcome.Same state.store x y) (fun same => same.final_iff.mpr)
      (eval_stable _ env) 3 same

/-- The name is bound to a procedure that another procedure makes when it is called, and something is
spliced in before it. -/
def Block.maker : Block where
  locals := [⟨"g",.list [.list [.symbol "lambda" .nowhere,.list [] .nowhere,
    .list [.symbol "lambda" .nowhere,.list [] .nowhere,.symbol "x" .nowhere] .nowhere] .nowhere] .nowhere,
    .nowhere,.nowhere,.nowhere⟩]
  body := [.symbol "x" .nowhere,.symbol "..." .nowhere,.symbol "g" .nowhere]

/-- Where the spliced list is empty, the block gives a procedure whose frame is the second new one. In
the call it is the first. -/
theorem Block.let_is_call_maker :
    ∃ state s other, Reaches Step.Sound .initial state ∧ maker.Plain Global.frame state ∧
      Converges (fun ev => ev.eval (maker.letForm .nowhere .nowhere .nowhere) Global.frame) state
        (.ok (.closure ⟨1,⟨[],none⟩,[.symbol "x" .nowhere],⟨2⟩⟩) s) ∧
      Converges (fun ev => ev.eval (maker.callForm .nowhere .nowhere .nowhere .nowhere) Global.frame)
        state other ∧
      Outcome.Same state.store (.ok (.closure ⟨1,⟨[],none⟩,[.symbol "x" .nowhere],⟨2⟩⟩) s) other := by
  let step := Step.define Global.frame "x" .nil
  have reaches : Reaches Step.Sound .initial (step.run .initial) :=
    .step step .refl ⟨Nat.zero_lt_one,trivial,trivial⟩
  have plain : maker.Plain Global.frame (step.run .initial) := by
    refine ⟨rfl,rfl,by decide,fun ops next collected => ?_⟩
    cases collected
    intro op member
    cases List.mem_singleton.mp member
    trivial
  have inside : Global.frame.Within (step.run .initial).store.frames.size := Nat.zero_lt_one
  have final : Final ((Evaluator.ofFuel 6).eval (maker.letForm .nowhere .nowhere .nowhere) Global.frame
    (step.run .initial)) := trivial
  have ends := (eval_stable (maker.letForm .nowhere .nowhere .nowhere) Global.frame).converges final
  obtain ⟨other,called,same⟩ := (maker.let_is_call reaches.wellFormed inside plain .nowhere .nowhere
    .nowhere .nowhere .nowhere .nowhere .nowhere).1 _ ends
  exact ⟨_,_,other,reaches,plain,ends,called,same⟩

/-- Elements of a list that are spliced into the body of a block are evaluated, but the body of a
procedure is made of syntax only. -/
theorem Block.spliced_body_differs :
    (match evaluate (.ofFuel ampleFuel) "(define x (list 1 2)) (let () x ...)" none Global.frame
        .initial with
      | .ok (.number (.integer i)) _ => some i
      | _ => none) = some 2 ∧
    (match evaluate (.ofFuel ampleFuel) "(define x (list 1 2)) ((lambda () x ...))" none Global.frame
        .initial with
      | .error (.running e) _ => some e.fault
      | _ => none) = some .invalidForm := by
  decide +kernel

end MiniScheme
