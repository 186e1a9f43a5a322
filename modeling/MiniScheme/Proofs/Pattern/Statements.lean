import MiniScheme.Proofs.Pattern.Expansion

/-! Arguments as statements. A rule may do nothing but name its variables one after the other, as
forms of its body or inside one form. A variable stands for a fragment that nothing has evaluated
yet, so what becomes of a fragment depends on whether the loop that meets its name forces it. -/
namespace MiniScheme

/-- Names as they stand one after the other in the body of a rule. -/
def Node.variables (spot : String → Position) (args : List (String × Node)) : List Node :=
  args.map fun arg => symbol arg.1 (spot arg.1)

namespace Transformer

/-- Variables bound to the fragments that they stand for, in the frame of the call. -/
def fragments (caller : FrameId) (args : List (String × Node)) : List (String × Value) :=
  args.map fun arg => (arg.1,.delayed ⟨arg.2,caller⟩)

/-- The state in which the body of a rule begins. -/
def entered (t : Transformer) (caller : FrameId) (pos : Position) (args : List (String × Node))
    (state : State) : State :=
  ⟨state.store.defineAll t.env (fragments caller args),
    state.tracers.note ⟨.transformer,pos,args.length⟩⟩

/-- Called with the arguments, the transformer takes a rule that has a variable for each and the
given body. -/
structure Takes (t : Transformer) (state : State) (args : List (String × Node))
    (body : List Node) : Prop where
  present : (state.store.frame? t.env).isSome
  distinct : (args.map Prod.fst).Nodup
  plain : Node.ellipsis ∉ args.map Prod.fst
  first : t.rules.find? (fun rule => PatternItem.matchesAll rule.pattern
    (args.map fun arg => .node arg.2)) = some ⟨args.map fun arg => .atom arg.1,body⟩

/-- Running the statements in turn leaves the names of those to come as they were bound. -/
def Undisturbed (ev : Evaluator) (caller env : FrameId) : List (String × Node) → State → Prop
  | [], _ => True
  | (name,n) :: rest, state =>
    state.store.lookup env name = some (.delayed ⟨n,caller⟩) ∧
      ∀ v next, (Operand.node n).evalForced ev caller state = .ok v next →
        Undisturbed ev caller env rest next

variable {t : Transformer} {state : State} {args : List (String × Node)} {body : List Node}
  {caller env : FrameId} {pos : Position} {last : String × Node}

theorem captures?_atoms (args : List (String × Node)) :
    PatternItem.captures? (args.map fun arg => .atom arg.1) (args.map fun arg => .node arg.2) =
      some (args.map fun arg => (arg.1,.one (.node arg.2))) := by
  induction args with
  | nil => rfl
  | cons arg args ih =>
    simp only [List.map_cons,PatternItem.captures?,PatternItem.capture?,List.drop_succ_cons,
      List.drop_zero,ih]
    rfl

theorem bindAll_atoms (args : List (String × Node)) (store : Store) (tracers : Tracers) :
    Capture.bindAll caller env (args.map fun arg => (arg.1,.one (.node arg.2))) ⟨store,tracers⟩ =
      .ok () ⟨store.defineAll env (fragments caller args),tracers⟩ := by
  induction args generalizing store with
  | nil => rfl
  | cons arg args ih => exact ih _

namespace Takes

theorem apply (takes : t.Takes state args body) (caller : FrameId) (pos : Position)
    (ev : Evaluator) :
    ev.apply (.transformer t) (args.map fun arg => .node arg.2) caller pos state =
      Eval.traced pos caller (ev.body t.env body) (t.entered caller pos args state) := by
  refine apply_rule takes.first (captures?_atoms args) ?_ ev
  rw [List.length_map]
  exact bindAll_atoms args _ _

theorem bound (takes : t.Takes state args body) (caller : FrameId) (pos : Position)
    {arg : String × Node} (mem : arg ∈ args) :
    (t.entered caller pos args state).store.binding? t.env arg.1 =
      some (.delayed ⟨arg.2,caller⟩) := by
  have names : (fragments caller args).map Prod.fst = args.map Prod.fst := by
    simp [fragments,Function.comp_def]
  have entry : (arg.1,Value.delayed ⟨arg.2,caller⟩) ∈ fragments caller args :=
    List.mem_map_of_mem mem
  exact Store.binding?_defineAll takes.present (names ▸ takes.distinct) entry

theorem plain_variables (takes : t.Takes state args body) (spot : String → Position) :
    ∀ n ∈ Node.variables spot args, n.isEllipsis = false := by
  intro n mem
  obtain ⟨arg,known,rfl⟩ := List.mem_map.mp mem
  have other : arg.1 ≠ Node.ellipsis := fun same =>
    takes.plain (same ▸ List.mem_map_of_mem known)
  simpa [Node.isEllipsis,Node.name?] using other

end Takes

/-- A body of names looks them up and gives the last fragment, unevaluated. -/
theorem body_variables (found : ∀ arg ∈ args, state.store.lookup env arg.1 =
      some (.delayed ⟨arg.2,caller⟩)) (ends : args.getLast? = some last) (fuel : Nat)
    (spot : String → Position) :
    (Evaluator.ofFuel (fuel + 1)).body env (Node.variables spot args) state =
      .ok (.delayed ⟨last.2,caller⟩) state := by
  induction args with
  | nil => contradiction
  | cons arg args ih =>
    have value := Evaluator.eval_symbol (found arg (.head _)) fuel (spot arg.1)
    cases args with
    | nil =>
      obtain rfl : arg = last := by simpa using ends
      exact value
    | cons next rest =>
      have more := ih (fun arg mem => found arg (.tail _ mem)) (by simpa using ends)
      change ((Evaluator.ofFuel (fuel + 1)).eval (.symbol arg.1 (spot arg.1)) env >>= fun _ =>
        (Evaluator.ofFuel (fuel + 1)).body env (Node.variables spot (next :: rest))) state = _
      simp only [bind,EStateM.bind,value,more]

/-- A name in a position that forces runs its fragment, in the frame of the call. -/
theorem evalForced_variable {name : String} {n : Node}
    (found : state.store.lookup env name = some (.delayed ⟨n,caller⟩)) (fuel : Nat)
    (spot : Position) :
    (Operand.node (.symbol name spot)).evalForced (.ofFuel (fuel + 1)) env state =
      (Operand.node n).evalForced (.ofFuel fuel) caller state := by
  have value := Evaluator.eval_symbol found fuel spot
  simp only [Operand.evalForced,Operand.eval,bind,EStateM.bind,value]
  rfl

theorem runSequence_variables {fuel : Nat}
    (undisturbed : Undisturbed (.ofFuel fuel) caller env args state) (spot : String → Position) :
    SpecialForm.runSequence (.ofFuel (fuel + 1)) env ((Node.variables spot args).map .node) state =
      SpecialForm.runSequence (.ofFuel fuel) caller (args.map fun arg => .node arg.2) state := by
  induction args generalizing state with
  | nil => rfl
  | cons arg args ih =>
    obtain ⟨found,rest⟩ := undisturbed
    have first := evalForced_variable found fuel (spot arg.1)
    cases args with
    | nil => exact first
    | cons next more =>
      change ((Operand.node (.symbol arg.1 (spot arg.1))).evalForced (.ofFuel (fuel + 1)) env >>=
        fun _ => SpecialForm.runSequence (.ofFuel (fuel + 1)) env
          ((Node.variables spot (next :: more)).map .node)) state =
        ((Operand.node arg.2).evalForced (.ofFuel fuel) caller >>= fun _ =>
          SpecialForm.runSequence (.ofFuel fuel) caller
            ((next :: more).map fun arg => .node arg.2)) state
      simp only [bind,EStateM.bind,first]
      -- the statement may change the store, but not what the names behind it stand for
      cases outcome : (Operand.node arg.2).evalForced (.ofFuel fuel) caller state with
      | ok v middle => exact ih (rest v middle outcome)
      | error failure middle => rfl

/-- Statements without effect may be left out. -/
theorem runSequence_idle {ev : Evaluator} (ends : args.getLast? = some last)
    (idle : ∀ arg ∈ args.dropLast, ∃ v, (Operand.node arg.2).evalForced ev caller state = .ok v state) :
    SpecialForm.runSequence ev caller (args.map fun arg => .node arg.2) state =
      (Operand.node last.2).evalForced ev caller state := by
  induction args with
  | nil => contradiction
  | cons arg args ih =>
    cases args with
    | nil =>
      obtain rfl : arg = last := by simpa using ends
      rfl
    | cons next rest =>
      obtain ⟨v,value⟩ := idle arg (.head _)
      have more := ih (by simpa using ends) fun arg mem => idle arg (.tail _ mem)
      change ((Operand.node arg.2).evalForced ev caller >>= fun _ =>
        SpecialForm.runSequence ev caller ((next :: rest).map fun arg => .node arg.2)) state = _
      simp only [bind,EStateM.bind,value,more]

namespace Takes

variable (ends : args.getLast? = some last) (fuel : Nat) (caller : FrameId) (pos : Position)
  (spot : String → Position)

include ends in
theorem forms (takes : t.Takes state args (Node.variables spot args)) :
    (Evaluator.ofFuel (fuel + 2)).apply (.transformer t) (args.map fun arg => .node arg.2) caller
      pos state = .ok (.delayed ⟨last.2,caller⟩) (t.entered caller pos args state) := by
  rw [takes.apply]
  refine Eval.traced_ok pos (body_variables (fun arg mem => ?_) ends (fuel + 1) spot)
  exact Store.lookup_of_binding? (takes.bound caller pos mem)

include ends in
theorem localForms {operator place list : Position} (takes : t.Takes state args
      [.list (.symbol SpecialForm.localBinding.name operator :: .list [] place ::
        Node.variables spot args) list])
    (found : (t.entered caller pos args state).store.lookup t.env SpecialForm.localBinding.name =
      some (.form .localBinding)) :
    (Evaluator.ofFuel (fuel + 2)).apply (.transformer t) (args.map fun arg => .node arg.2) caller
      pos state = .ok (.delayed ⟨last.2,caller⟩)
        ((t.entered caller pos args state).newFrame t.env).2 := by
  have plain : ∀ n ∈ .list [] place :: Node.variables spot args, n.isEllipsis = false :=
    List.forall_mem_cons.mpr ⟨rfl,takes.plain_variables spot⟩
  have nonempty : (Node.variables spot args).map Operand.node ≠ [] := by
    cases args with
    | nil => contradiction
    | cons arg args => exact List.cons_ne_nil _ _
  rw [takes.apply]
  refine Eval.traced_ok pos ((Evaluator.eval_form found (Operand.collect_plain plain) fuel operator
    list).trans (Eval.traced_ok list ?_))
  refine (SpecialForm.runLocalBinding_nil _ nonempty place list).trans ?_
  -- the block has a frame of its own, from which the names are found in that of the transformer
  have inside : ∀ arg ∈ args, ((t.entered caller pos args state).newFrame t.env).2.store.lookup
      ((t.entered caller pos args state).newFrame t.env).1 arg.1 =
        some (.delayed ⟨arg.2,caller⟩) :=
    fun arg mem => Store.lookup_child (takes.bound caller pos mem)
  rw [SpecialForm.runForms_node]
  exact body_variables inside ends fuel spot

theorem sequence {operator list : Position} (takes : t.Takes state args
      [.list (.symbol SpecialForm.sequence.name operator :: Node.variables spot args) list])
    (found : (t.entered caller pos args state).store.lookup t.env SpecialForm.sequence.name =
      some (.form .sequence))
    (undisturbed : Undisturbed (.ofFuel fuel) caller t.env args (t.entered caller pos args state)) :
    (Evaluator.ofFuel (fuel + 2)).apply (.transformer t) (args.map fun arg => .node arg.2) caller
      pos state =
      Eval.traced pos caller (Eval.traced list t.env (SpecialForm.runSequence (.ofFuel fuel) caller
        (args.map fun arg => .node arg.2))) (t.entered caller pos args state) := by
  rw [takes.apply]
  refine Eval.traced_congr ?_ pos caller
  refine (Evaluator.eval_form found (Operand.collect_plain (takes.plain_variables spot)) fuel
    operator list).trans ?_
  exact Eval.traced_congr (runSequence_variables undisturbed spot) list t.env

end Takes

/-- What becomes of arguments that a rule uses as statements. As forms of the rule, or in a block of
local bindings, their names are looked up and the last fragment is given back: none was run, and
whoever forces the result runs that one alone. A sequence runs them all, in the frame of the call
and in order. The two ways agree where the statements before the last have no effect. -/
theorem statements_by_body (ends : args.getLast? = some last) (fuel : Nat) (state : State)
    (caller : FrameId) (pos : Position) (spot : String → Position) :
    (∀ t : Transformer, t.Takes state args (Node.variables spot args) →
      (Evaluator.ofFuel (fuel + 2)).apply (.transformer t) (args.map fun arg => .node arg.2) caller
        pos state = .ok (.delayed ⟨last.2,caller⟩) (t.entered caller pos args state)) ∧
    (∀ (t : Transformer) (operator place list : Position),
      t.Takes state args [.list (.symbol SpecialForm.localBinding.name operator :: .list [] place ::
        Node.variables spot args) list] →
      (t.entered caller pos args state).store.lookup t.env SpecialForm.localBinding.name =
        some (.form .localBinding) →
      (Evaluator.ofFuel (fuel + 2)).apply (.transformer t) (args.map fun arg => .node arg.2) caller
        pos state = .ok (.delayed ⟨last.2,caller⟩)
          ((t.entered caller pos args state).newFrame t.env).2) ∧
    (∀ (t : Transformer) (operator list : Position),
      t.Takes state args [.list (.symbol SpecialForm.sequence.name operator ::
        Node.variables spot args) list] →
      (t.entered caller pos args state).store.lookup t.env SpecialForm.sequence.name =
        some (.form .sequence) →
      Undisturbed (.ofFuel fuel) caller t.env args (t.entered caller pos args state) →
      (Evaluator.ofFuel (fuel + 2)).apply (.transformer t) (args.map fun arg => .node arg.2) caller
        pos state =
        Eval.traced pos caller (Eval.traced list t.env (SpecialForm.runSequence (.ofFuel fuel) caller
          (args.map fun arg => .node arg.2))) (t.entered caller pos args state)) ∧
    ∀ start, (∀ arg ∈ args.dropLast, ∃ v,
        (Operand.node arg.2).evalForced (.ofFuel fuel) caller start = .ok v start) →
      (Evaluator.ofFuel (fuel + 1)).force (.delayed ⟨last.2,caller⟩) start =
        SpecialForm.runSequence (.ofFuel fuel) caller (args.map fun arg => .node arg.2) start := by
  refine ⟨?_,?_,?_,?_⟩
  · intro t takes
    exact takes.forms ends fuel caller pos spot
  · intro t operator place list takes found
    exact takes.localForms ends fuel caller pos spot found
  · intro t operator list takes found undisturbed
    exact takes.sequence fuel caller pos spot found undisturbed
  · intro start idle
    exact (runSequence_idle ends idle).symm

/-- A definition in front of the name it defines is not run, and the name is not found afterwards. -/
theorem statements_by_body_definition :
    ∃ next, (Evaluator.ofFuel 2).apply (.transformer ⟨0,[⟨[.atom "a",.atom "b"],
        [.list [.symbol "let" .nowhere,.list [] .nowhere,.symbol "a" .nowhere,.symbol "b" .nowhere]
          .nowhere]⟩],Global.frame⟩)
      [.node (.list [.symbol "define" .nowhere,.symbol "q" .nowhere,.boolean true .nowhere] .nowhere),
        .node (.symbol "q" .nowhere)] Global.frame .nowhere .initial =
        .ok (.delayed ⟨.symbol "q" .nowhere,Global.frame⟩) next ∧
      next.store.lookup Global.frame "q" = none := by
  have takes : Takes ⟨0,[⟨[.atom "a",.atom "b"],[.list [.symbol "let" .nowhere,.list [] .nowhere,
      .symbol "a" .nowhere,.symbol "b" .nowhere] .nowhere]⟩],Global.frame⟩ .initial
      [("a",.list [.symbol "define" .nowhere,.symbol "q" .nowhere,.boolean true .nowhere] .nowhere),
        ("b",.symbol "q" .nowhere)]
      [.list [.symbol "let" .nowhere,.list [] .nowhere,.symbol "a" .nowhere,.symbol "b" .nowhere]
        .nowhere] := ⟨rfl,by decide,by decide,rfl⟩
  have call := (statements_by_body rfl 0 .initial Global.frame .nowhere fun _ => .nowhere).2.1 _
    .nowhere .nowhere .nowhere takes rfl
  exact ⟨_,call,rfl⟩

/-- An assignment used as a statement is lost in a block of local bindings, and not in a sequence. -/
theorem assignment_lost :
    (match evaluate (.ofFuel ampleFuel) ("(define p (cons 0 0)) (define-syntax m (syntax-rules () " ++
        "((_ a b) (let () a b)))) (m (set-car! p 1) (car p))") none Global.frame .initial with
      | .ok (.number (.integer i)) _ => some i
      | _ => none) = some 0 ∧
    (match evaluate (.ofFuel ampleFuel) ("(define p (cons 0 0)) (define-syntax m (syntax-rules () " ++
        "((_ a b) (begin a b)))) (m (set-car! p 1) (car p))") none Global.frame .initial with
      | .ok (.number (.integer i)) _ => some i
      | _ => none) = some 1 := by
  decide +kernel

end Transformer
end MiniScheme
