import MiniScheme.Eval.Global
import MiniScheme.Proofs.Eval.Fuel
import MiniScheme.Proofs.Pattern.Binding

/-! Recursion over varargs. A rule may pass the rest of its operands on to its own transformer. Every
use overwrites the variables of the one before, in the frame that they share, but by then the rest has
been spliced, and the fragments in it belong to the frame of the first call. The example is a
disjunction of any number of operands. -/
namespace MiniScheme

theorem Store.isSome_frame?_of_lookup {s : Store} {f : FrameId} {name : String} {v : Value}
    (found : s.lookup f name = some v) : (s.frame? f).isSome := by
  cases absent : s.frame? f with
  | some frame => rfl
  | none => simp [Store.lookup,Store.chain,Store.chainWithin,absent] at found

namespace Disjunction

/-- The definition of the transformer. -/
def definition : String :=
  "(define-syntax my-or (syntax-rules () ((_ e r ...) (if e e (my-or r ...))) ((_) #f)))"

/-- The places of the definition that its rules keep. -/
structure Spots where
  form : Position
  operator : Position
  test : Position
  value : Position
  call : Position
  itself : Position
  rest : Position
  repetition : Position
  otherwise : Position

/-- The call for the rest of the operands. -/
def Spots.again (spots : Spots) : Node :=
  .list [.symbol "my-or" spots.itself,.symbol "r" spots.rest,
    .symbol Node.ellipsis spots.repetition] spots.call

def Spots.choice (spots : Spots) : Node :=
  .list [.symbol SpecialForm.conditional.name spots.operator,.symbol "e" spots.test,
    .symbol "e" spots.value,spots.again] spots.form

def Spots.first (spots : Spots) : Rule := ⟨[.atom "e",.vararg "r"],[spots.choice]⟩

def Spots.rules (spots : Spots) : List Rule := [spots.first,⟨[],[.boolean false spots.otherwise]⟩]

/-- `Simple s env n v`: an operand that is a literal, or a name that no rule uses and whose value in
`env` is not delayed. -/
inductive Simple (s : Store) (env : FrameId) : Node → Value → Prop where
  | string (text : String) (label : Nat) (pos : Position) :
      Simple s env (.string text label pos) (.string text label)
  | char (c : Char) (pos : Position) : Simple s env (.char c pos) (.char c)
  | boolean (b : Bool) (pos : Position) : Simple s env (.boolean b pos) (.boolean b)
  | number (n : Number) (pos : Position) : Simple s env (.number n pos) (.number n)
  | symbol {name : String} {v : Value} (pos : Position) : name ∉ ["e","r",Node.ellipsis] →
      s.lookup env name = some v → v.kind ≠ .delayed → Simple s env (.symbol name pos) v

/-- All names but the variables of the rules are found as before. -/
def Agree (s t : Store) : Prop := ∀ f name, name ∉ ["e","r"] → t.lookup f name = s.lookup f name

/-- The transformer and what its rules use have their meaning. -/
structure Ready (t : Transformer) (s : Store) : Prop where
  itself : s.lookup t.env "my-or" = some (.transformer t)
  conditional : s.lookup t.env SpecialForm.conditional.name = some (.form .conditional)

/-- `Pending s env w v`: what a use gives back. Forcing it gives `v`. -/
inductive Pending (s : Store) (env : FrameId) : Value → Value → Prop where
  | fragment {n : Node} {v : Value} : Simple s env n v → Pending s env (.delayed ⟨n,env⟩) v
  | otherwise : Pending s env (.boolean false) (.boolean false)

variable {s u : Store} {state : State} {env caller : FrameId} {n : Node} {v w : Value} {t : Transformer}
  {spots : Spots}

theorem Agree.trans {q : Store} (first : Agree s u) (second : Agree u q) : Agree s q :=
  fun f name other => (second f name other).trans (first f name other)

theorem Ready.agree (ready : Ready t s) (agree : Agree s u) : Ready t u where
  itself := (agree _ _ (by decide)).trans ready.itself
  conditional := (agree _ _ (by decide)).trans ready.conditional

namespace Simple

theorem agree (simple : Simple s env n v) (agree : Agree s u) : Simple u env n v := by
  cases simple with
  | string | char | boolean | number => constructor
  | symbol pos free found plain =>
    refine .symbol pos free ((agree env _ ?_).trans found) plain
    exact fun member => free (List.mem_append_left [Node.ellipsis] member)

theorem not_ellipsis (simple : Simple s env n v) : n.isEllipsis = false := by
  cases simple with
  | string | char | boolean | number => rfl
  | symbol pos free found plain =>
    simp only [List.mem_cons,not_or] at free
    simp [Node.isEllipsis,Node.name?,free.2.2.1]

theorem eval (simple : Simple state.store env n v) (fuel : Nat) :
    (Evaluator.ofFuel (fuel + 1)).eval n env state = .ok v state := by
  cases simple with
  | string | char | boolean | number => rfl
  | symbol pos free found plain => exact Evaluator.eval_symbol found fuel pos

theorem force (simple : Simple s env n v) (fuel : Nat) :
    (Evaluator.ofFuel (fuel + 1)).force v = pure v := by
  cases simple with
  | string | char | boolean | number => rfl
  | symbol pos free found plain => exact Evaluator.force_plain plain fuel

/-- A fragment is evaluated in the frame that it belongs to. -/
theorem force_fragment (simple : Simple state.store env n v) (fuel : Nat) :
    (Evaluator.ofFuel (fuel + 2)).force (.delayed ⟨n,env⟩) state = .ok v state := by
  change ((Evaluator.ofFuel (fuel + 1)).eval n env >>= (Evaluator.ofFuel (fuel + 1)).force) state = _
  simp only [bind,EStateM.bind,simple.eval,simple.force]
  rfl

end Simple

theorem Pending.force (pending : Pending state.store env w v) (fuel : Nat) :
    (Evaluator.ofFuel (fuel + 2)).force w state = .ok v state := by
  cases pending with
  | fragment simple => exact simple.force_fragment fuel
  | otherwise => rfl

theorem meaning?_other (op : Operand) (ops : List Operand) {name : String} (other : name ∉ ["e","r"]) :
    PatternItem.meaning? [.atom "e",.vararg "r"] (op :: ops) name = none := by
  simp only [List.mem_cons,List.not_mem_nil,or_false,not_or,← ne_eq] at other
  simp [PatternItem.meaning?,PatternItem.slotsAll,PatternItem.slots,Slot.name?,other.1.symm,
    other.2.symm]

/-- A use with operands binds the first and the rest, and comes to a choice between them. -/
theorem apply_cons (rules : t.rules = spots.rules) (ready : Ready t state.store) (op : Operand)
    (ops : List Operand) (caller : FrameId) (pos : Position) :
    ∃ next, Agree state.store next.store ∧ next.store.lookup t.env "e" = some (op.delay caller) ∧
      Operand.Spliced next.store t.env "r" (ops.map (Operand.delay caller)) ∧
      ∀ fuel, (Evaluator.ofFuel (fuel + 2)).apply (.transformer t) (op :: ops) caller pos state =
        Eval.traced pos caller (Eval.traced spots.form t.env (SpecialForm.runConditional
          (.ofFuel (fuel + 1)) [.node (.symbol "e" spots.test),.node (.symbol "e" spots.value),
            .node spots.again] t.env)) next := by
  have parsed : PatternItem.Parsed [.atom "e",.vararg "r"] :=
    ⟨[],[.symbol "e" .nowhere,.symbol "r" .nowhere,.symbol Node.ellipsis .nowhere],rfl⟩
  have matched : PatternItem.matchesAll spots.first.pattern (op :: ops) = true := by
    cases ops <;> rfl
  have first : t.rules.find? (fun rule => PatternItem.matchesAll rule.pattern (op :: ops)) =
      some spots.first := by
    rw [rules,Spots.rules]
    exact List.find?_cons_of_pos matched
  let noted : State := ⟨state.store,state.tracers.note ⟨.transformer,pos,(op :: ops).length⟩⟩
  have present : (noted.store.frame? t.env).isSome := Store.isSome_frame?_of_lookup ready.itself
  obtain ⟨captures,next,captured,run,bound⟩ := parsed.binds matched present caller
  have agree : Agree state.store next.store := fun f name other =>
    bound.lookup (meaning?_other op ops other) f
  have one : PatternItem.meaning? [.atom "e",.vararg "r"] (op :: ops) "e" = some (.one op) := rfl
  have many : PatternItem.meaning? [.atom "e",.vararg "r"] (op :: ops) "r" = some (.many ops) := rfl
  obtain ⟨_,head,rfl⟩ := bound.named one
  obtain ⟨list,tail,walked⟩ := bound.named many
  refine ⟨next,agree,Store.lookup_of_binding? head,⟨list,Store.lookup_of_binding? tail,walked⟩,?_⟩
  intro fuel
  rw [Transformer.apply_rule first captured run]
  refine Eval.traced_congr ?_ pos caller
  have plain : ∀ n ∈ [.symbol "e" spots.test,.symbol "e" spots.value,spots.again],
      n.isEllipsis = false := by
    simp [Spots.again,Node.isEllipsis,Node.name?,Node.ellipsis]
  exact Evaluator.eval_form (ready.agree agree).conditional (Operand.collect_plain plain) fuel
    spots.operator spots.form

/-- A use without operands is false. -/
theorem apply_nil (rules : t.rules = spots.rules) (caller : FrameId) (pos : Position)
    (state : State) :
    ∃ next, next.store = state.store ∧ ∀ fuel,
      (Evaluator.ofFuel (fuel + 1)).apply (.transformer t) [] caller pos state =
        .ok (.boolean false) next := by
  have first : t.rules.find? (fun rule => PatternItem.matchesAll rule.pattern []) =
      some ⟨[],[.boolean false spots.otherwise]⟩ := by
    rw [rules]
    rfl
  refine ⟨⟨state.store,state.tracers.note ⟨.transformer,pos,0⟩⟩,rfl,?_⟩
  intro fuel
  rw [Transformer.apply_rule first rfl rfl]
  rfl

/-- The choice of a use whose first operand is a fragment: the fragment itself if its value is true,
and otherwise what the rest comes to. -/
theorem choose (spots : Spots) {values : List Value}
    (head : state.store.lookup t.env "e" = some (.delayed ⟨n,env⟩))
    (simple : Simple state.store env n v) (ready : Ready t state.store)
    (tail : Operand.Spliced state.store t.env "r" values) (fuel : Nat) :
    SpecialForm.runConditional (.ofFuel (fuel + 2)) [.node (.symbol "e" spots.test),
        .node (.symbol "e" spots.value),.node spots.again] t.env state =
      if v.isTrue then .ok (.delayed ⟨n,env⟩) state
      else (Evaluator.ofFuel (fuel + 1)).apply (.transformer t) (values.map Operand.ofElement) t.env
        spots.call state := by
  have test : (Operand.node (.symbol "e" spots.test)).evalForced (.ofFuel (fuel + 2)) t.env state =
      .ok v state := by
    simp only [Operand.evalForced,Operand.eval,bind,EStateM.bind,
      Evaluator.eval_symbol head,simple.force_fragment]
  simp only [SpecialForm.runConditional,bind,EStateM.bind,test]
  split
  · exact Evaluator.eval_symbol head (fuel + 1) spots.value
  · exact Evaluator.eval_call ready.itself nofun (Operand.collect_spliced tail ..) fuel spots.itself
      spots.call

/-- A use gives back the first operand whose value is true, as a fragment of the frame it came from,
or false if there is none, however deep the recursion has to go. -/
theorem apply_pending (rules : t.rules = spots.rules) {nodes : List Node} {values : List Value}
    (simple : List.Forall₂ (Simple state.store env) nodes values) (ready : Ready t state.store)
    {ops : List Operand}
    (fragments : ops.map (Operand.delay caller) = nodes.map fun n => .delayed ⟨n,env⟩)
    (pos : Position) :
    ∃ w next, Agree state.store next.store ∧
      Pending next.store env w ((values.find? Value.isTrue).getD (.boolean false)) ∧
      ∀ fuel, (Evaluator.ofFuel (fuel + 2 * nodes.length + 1)).apply (.transformer t) ops caller pos
        state = .ok w next := by
  induction nodes generalizing values ops caller pos state with
  | nil =>
    cases simple
    obtain rfl := List.map_eq_nil_iff.mp fragments
    obtain ⟨next,same,use⟩ := apply_nil rules caller pos state
    exact ⟨_,next,fun _ _ _ => by rw [same],.otherwise,use⟩
  | cons n nodes ih =>
    cases simple with
    | @cons _ v _ values first rest =>
      obtain ⟨op,ops,rfl,head,tail⟩ := List.map_eq_cons_iff.mp fragments
      obtain ⟨middle,agree,bound,spliced,use⟩ := apply_cons rules ready op ops caller pos
      rw [head] at bound
      rw [tail] at spliced
      have ready := ready.agree agree
      have chosen := choose spots bound (first.agree agree) ready spliced
      have deep (fuel : Nat) : fuel + 2 * (n :: nodes).length + 1 = fuel + 2 * nodes.length + 1 + 2 := by
        simp only [List.length_cons]
        omega
      cases truth : v.isTrue with
      | true =>
        rw [List.find?_cons_of_pos truth]
        refine ⟨_,middle,agree,.fragment (first.agree agree),?_⟩
        intro fuel
        rw [deep,use]
        refine Eval.traced_ok pos (Eval.traced_ok spots.form ?_)
        rw [chosen,truth,if_pos rfl]
      | false =>
        -- the rest is spliced before its name is bound again, and keeps the frame it came from
        have again : ((nodes.map fun n => Value.delayed ⟨n,env⟩).map Operand.ofElement).map
            (Operand.delay t.env) = nodes.map fun n => .delayed ⟨n,env⟩ := by
          simp only [List.map_map]
          rfl
        obtain ⟨w,next,further,pending,result⟩ :=
          ih (rest.imp fun _ _ simple => simple.agree agree) ready again spots.call
        rw [List.find?_cons_of_neg (by rw [truth]; exact Bool.false_ne_true)]
        refine ⟨w,next,agree.trans further,pending,?_⟩
        intro fuel
        rw [deep,use]
        refine Eval.traced_ok pos (Eval.traced_ok spots.form ?_)
        rw [chosen,truth,if_neg Bool.false_ne_true,result]

/-- A call by name, forced, gives the first value that is true. -/
theorem call_converges (rules : t.rules = spots.rules) {nodes : List Node} {values : List Value}
    (simple : List.Forall₂ (Simple state.store env) nodes values) (ready : Ready t state.store)
    (found : state.store.lookup env "my-or" = some (.transformer t)) (place pos : Position) :
    ∃ next, Eval.Converges
      (fun ev => ev.eval (.list (.symbol "my-or" place :: nodes) pos) env >>= ev.force) state
      (.ok ((values.find? Value.isTrue).getD (.boolean false)) next) := by
  have plain : ∀ n ∈ nodes, n.isEllipsis = false := by
    induction simple with
    | nil => exact nofun
    | cons first _ ih => exact List.forall_mem_cons.mpr ⟨first.not_ellipsis,ih⟩
  have fragments : (nodes.map Operand.node).map (Operand.delay env) =
      nodes.map fun n => .delayed ⟨n,env⟩ := by
    simp only [List.map_map]
    rfl
  obtain ⟨w,next,-,pending,use⟩ := apply_pending rules simple ready fragments pos
  refine ⟨next,trivial,2 * nodes.length + 2,?_⟩
  intro fuel enough
  obtain ⟨more,rfl⟩ : ∃ more, fuel = more + 2 * nodes.length + 2 :=
    ⟨fuel - (2 * nodes.length + 2),by omega⟩
  have call := Evaluator.eval_call found nofun (Operand.collect_plain plain) (more + 2 * nodes.length)
    place pos
  simp only [bind,EStateM.bind,call,use,pending.force]

/-- The definition makes a transformer with its two rules, and changes nothing else that they use. -/
theorem evaluate_definition (source : Option String) :
    ∃ t spots defined, evaluate (.ofFuel ampleFuel) definition source Global.frame .initial =
        .ok .unspecified defined ∧
      t.env = Global.frame ∧ t.rules = Spots.rules spots ∧
      defined.store.binding? Global.frame "my-or" = some (.transformer t) ∧
      defined.store.binding? Global.frame SpecialForm.conditional.name = some (.form .conditional) :=
  ⟨_,⟨_,_,_,_,_,_,_,_,_⟩,_,rfl,rfl,rfl,rfl,rfl⟩

/-- Recursive use of a transformer, for any number of operands. Once the disjunction is defined, and
as long as its definition stands, a call with literals and names of values ends, from whatever frame
the transformer is found, and gives the first value that is not false, or false if there is none. -/
theorem disjunction_of_operands (source : Option String) :
    ∃ t defined, evaluate (.ofFuel ampleFuel) definition source Global.frame .initial =
        .ok .unspecified defined ∧
      defined.store.binding? Global.frame "my-or" = some (.transformer t) ∧
      defined.store.binding? Global.frame SpecialForm.conditional.name = some (.form .conditional) ∧
      ∀ (state : State) (env : FrameId) (nodes : List Node) (values : List Value)
        (place pos : Position),
        state.store.binding? Global.frame "my-or" = some (.transformer t) →
        state.store.binding? Global.frame SpecialForm.conditional.name = some (.form .conditional) →
        state.store.lookup env "my-or" = some (.transformer t) →
        List.Forall₂ (Simple state.store env) nodes values →
        ∃ next, Eval.Converges
          (fun ev => ev.eval (.list (.symbol "my-or" place :: nodes) pos) env >>= ev.force) state
          (.ok ((values.find? Value.isTrue).getD (.boolean false)) next) := by
  obtain ⟨t,spots,defined,evaluated,outermost,rules,itself,conditional⟩ := evaluate_definition source
  refine ⟨t,defined,evaluated,itself,conditional,?_⟩
  intro state env nodes values place pos itself conditional found simple
  have ready : Ready t state.store := by
    refine ⟨?_,?_⟩ <;> rw [outermost]
    · exact Store.lookup_of_binding? itself
    · exact Store.lookup_of_binding? conditional
  exact call_converges rules simple ready found place pos

/-- After a false literal, the name of a special form has a true value. -/
theorem disjunction_of_operands_name :
    ∃ defined next, evaluate (.ofFuel ampleFuel) definition none Global.frame .initial =
        .ok .unspecified defined ∧
      Eval.Converges (fun ev => ev.eval (.list [.symbol "my-or" .nowhere,.boolean false .nowhere,
        .symbol "if" .nowhere,.number (.integer 2) .nowhere] .nowhere) Global.frame >>= ev.force) defined
        (.ok (.form .conditional) next) := by
  obtain ⟨t,defined,evaluated,itself,conditional,calls⟩ := disjunction_of_operands none
  have simple : List.Forall₂ (Simple defined.store Global.frame)
      [.boolean false .nowhere,.symbol "if" .nowhere,.number (.integer 2) .nowhere]
      [.boolean false,.form .conditional,.number (.integer 2)] :=
    .cons (.boolean false _) (.cons (.symbol _ (by decide) (Store.lookup_of_binding? conditional)
      (by decide)) (.cons (.number _ _) .nil))
  obtain ⟨next,ends⟩ := calls defined Global.frame _ _ .nowhere .nowhere itself conditional
    (Store.lookup_of_binding? itself) simple
  exact ⟨defined,next,evaluated,ends⟩

end Disjunction
end MiniScheme
