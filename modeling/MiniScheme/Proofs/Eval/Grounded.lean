import MiniScheme.Proofs.Eval.Congruence
import MiniScheme.Proofs.Store.Forest

/-! Evaluation keeps frames a forest. From a grounded store it comes to a grounded one that has
grown from it, and to a value that belongs to a frame there. Frames are never removed, so along a
computation the number of frames known to exist only grows, and what is known of values stays. -/
namespace MiniScheme

/-- The frame that an operand belongs to, if any, is one of the first `n`. -/
def Operand.Within (n : Nat) : Operand → Prop
  | node _ => True
  | deferred d => d.env.index < n
  | value v => v.Within n

def Operand.WithinAll (n : Nat) (ops : List Operand) : Prop := ∀ op ∈ ops, op.Within n

def Capture.Within (n : Nat) : Capture → Prop
  | one op => op.Within n
  | many ops => Operand.WithinAll n ops

def FrameId.Within (n : Nat) (f : FrameId) : Prop := f.index < n

variable {n m : Nat}

theorem FrameId.Within.mono {f : FrameId} (within : f.Within n) (le : n ≤ m) : f.Within m :=
  Nat.lt_of_lt_of_le within le

theorem Operand.Within.mono {op : Operand} (within : op.Within n) (le : n ≤ m) : op.Within m := by
  cases op with
  | node => trivial
  | deferred => exact Nat.lt_of_lt_of_le within le
  | value v => exact Value.Within.mono within le

theorem Operand.WithinAll.mono {ops : List Operand} (within : WithinAll n ops) (le : n ≤ m) :
    WithinAll m ops := fun op member => (within op member).mono le

namespace Eval

/-- What a computation from the store `s` may end in, with a value that `A` holds of, given the
number of frames there are by then. -/
inductive Sound (s : Store) {α : Type} (A : Nat → α → Prop) : EStateM.Result Failure State α → Prop where
  | ok {a : α} {t : State} : s.Leads t.store → A t.store.frames.size a → Sound s A (.ok a t)
  | error {failure : Failure} {t : State} : s.Leads t.store → Sound s A (.error failure t)

/-- From a grounded store of at least `n` frames the computation ends soundly. -/
def Keeps (n : Nat) {α : Type} (A : Nat → α → Prop) (x : Eval α) : Prop :=
  ∀ s : State, s.store.Grounded → n ≤ s.store.frames.size → Sound s.store A (x s)

/-- Nothing is asked of a value. -/
abbrev Any {α : Type} : Nat → α → Prop := fun _ _ => True

namespace Keeps

variable {α β : Type} {A : Nat → α → Prop} {B : Nat → β → Prop} {x : Eval α}

theorem pure {a : α} (holds : ∀ {m}, n ≤ m → A m a) : Keeps n A (Pure.pure a) :=
  fun _ grounded enough => .ok grounded.leads (holds enough)

theorem value {v : Value} (within : v.Within n) : Keeps n Value.Within (Pure.pure v) :=
  pure within.mono

theorem throw (failure : Failure) : Keeps n A (MonadExcept.throw failure) :=
  fun _ grounded _ => .error grounded.leads

theorem bind {f : α → Eval β} (first : Keeps n A x)
    (next : ∀ {m a}, n ≤ m → A m a → Keeps m B (f a)) : Keeps n B (x >>= f) := by
  intro s grounded enough
  have start := first s grounded enough
  simp only [Bind.bind,EStateM.bind]
  generalize x s = outcome at start ⊢
  cases start with
  | error leads => exact .error leads
  | @ok a t leads holds =>
    have rest := next (enough.trans leads.size) holds t leads.grounded (Nat.le_refl _)
    dsimp only
    generalize f a t = outcome at rest ⊢
    cases rest with
    | ok more holds => exact .ok (leads.trans more) holds
    | error more => exact .error (leads.trans more)

theorem map {f : α → β} (first : Keeps n A x) (next : ∀ {m a}, A m a → B m (f a)) :
    Keeps n B (f <$> x) := by
  intro s grounded enough
  have start := first s grounded enough
  simp only [Functor.map,EStateM.map]
  generalize x s = outcome at start ⊢
  cases start with
  | ok leads holds => exact .ok leads (next holds)
  | error leads => exact .error leads

theorem traced (pos : Position) (env : FrameId) (inside : Keeps n A x) :
    Keeps n A (Eval.traced pos env x) := by
  intro s grounded enough
  have start := inside s grounded enough
  simp only [Eval.traced]
  generalize x s = outcome at start ⊢
  cases start with
  | ok leads holds => exact .ok leads holds
  | error leads => exact .error leads

theorem readStore {f : Store → α}
    (next : ∀ {s : Store}, s.Grounded → n ≤ s.frames.size → A s.frames.size (f s)) :
    Keeps n A (Eval.readStore f) :=
  fun _ grounded enough => .ok grounded.leads (next grounded enough)

theorem onStore {f : Store → α × Store} (next : ∀ {s : Store}, s.Grounded → n ≤ s.frames.size →
      s.Leads (f s).2 ∧ A (f s).2.frames.size (f s).1) : Keeps n A (Eval.onStore f) :=
  fun _ grounded enough => .ok (next grounded enough).1 (next grounded enough).2

theorem changeStore {f : Store → Store}
    (next : ∀ {s : Store}, s.Grounded → n ≤ s.frames.size → s.Leads (f s)) :
    Keeps n Any (Eval.changeStore f) :=
  fun _ grounded enough => .ok (next grounded enough) trivial

theorem note (call : CallRecord) : Keeps n Any (Eval.note call) :=
  fun _ grounded _ => .ok grounded.leads trivial

theorem fail (fault : RuntimeFault) : Keeps n A (Eval.fail fault) := throw _

theorem failAt (fault : RuntimeFault) (pos : Position) (env : FrameId) :
    Keeps n A (Eval.failAt fault pos env) := throw _

theorem ofSyntax (result : Except SyntaxError α) : Keeps n Any (Eval.ofSyntax result) := by
  cases result with
  | ok a => exact pure fun _ => trivial
  | error e => exact throw _

theorem ofFault (result : Except RuntimeFault α) : Keeps n Any (Eval.ofFault result) := by
  cases result with
  | ok a => exact pure fun _ => trivial
  | error fault => exact fail fault

theorem define (env : FrameId) (name : String) {v : Value} (within : v.Within n) :
    Keeps n Any (Eval.define env name v) :=
  changeStore fun grounded enough => grounded.define env name (within.mono enough)

/-- A child is made of a frame that exists, and exists from then on. -/
theorem newChild {parent : FrameId} (within : parent.Within n) :
    Keeps n FrameId.Within (Eval.newChild parent) := by
  refine onStore fun grounded enough => ⟨grounded.newFrame (within.mono enough),?_⟩
  simp [FrameId.Within,Store.newFrame]

theorem newList {values : List Value} (within : Value.WithinAll n values) :
    Keeps n Value.Within (Eval.newList values) :=
  onStore fun grounded enough =>
    have made := grounded.list (within.mono enough)
    ⟨made.1,made.2 _⟩

theorem quote (datum : Except SyntaxError Datum) : Keeps n Value.Within (Eval.quote datum) :=
  bind (ofSyntax datum) fun _ _ => onStore fun grounded _ =>
    have built := grounded.build _
    ⟨built.1,built.2 _⟩

theorem lookup (name : String) (pos : Position) (env : FrameId) :
    Keeps n Value.Within (Eval.lookup name pos env) := by
  have read : Keeps n (fun m found => ∀ v, found = some v → v.Within m)
      (Eval.readStore fun s => s.lookup env name) :=
    readStore fun grounded _ _ found => grounded.lookup found
  refine bind read fun {m found} _ within => ?_
  cases found with
  | some v => exact value (within v rfl)
  | none => exact failAt _ pos env

end Keeps
end Eval

open Eval

/-- Evaluations in frames that exist, and of values that belong to such frames, are sound. -/
structure Evaluator.Keeps (ev : Evaluator) : Prop where
  eval {n : Nat} (node : Node) {env : FrameId} : env.Within n →
    Eval.Keeps n Value.Within (ev.eval node env)
  force {n : Nat} {v : Value} : v.Within n → Eval.Keeps n Value.Within (ev.force v)

variable {ev : Evaluator} {env : FrameId} {ops : List Operand}

theorem Evaluator.Keeps.body (keeps : ev.Keeps) (inside : env.Within n) (forms : List Node) :
    Eval.Keeps n Value.Within (ev.body env forms) := by
  fun_induction Evaluator.body ev env forms generalizing n with
  | case1 => exact .value trivial
  | case2 node => exact keeps.eval node inside
  | case3 node nodes _ ih => exact .bind (keeps.eval node inside) fun le _ => ih (inside.mono le)

/-! Operands. -/

namespace Operand

theorem eval_keeps (keeps : ev.Keeps) (inside : env.Within n) {op : Operand} (within : op.Within n) :
    Keeps n Value.Within (op.eval ev env) := by
  cases op with
  | node node => exact keeps.eval node inside
  | deferred d => exact .value within
  | value v => exact .value within

theorem evalForced_keeps (keeps : ev.Keeps) (inside : env.Within n) {op : Operand}
    (within : op.Within n) : Keeps n Value.Within (op.evalForced ev env) :=
  .bind (eval_keeps keeps inside within) fun _ value => keeps.force value

theorem evalAll_keeps (keeps : ev.Keeps) (inside : env.Within n) (within : WithinAll n ops) :
    Keeps n Value.WithinAll (evalAll ev env ops) := by
  induction ops generalizing n with
  | nil => exact .pure fun _ => Value.withinAll_nil _
  | cons op ops ih =>
    obtain ⟨first,rest⟩ := List.forall_mem_cons.mp within
    refine .bind (evalForced_keeps keeps inside first) fun {m v} le value => ?_
    refine .bind (ih (inside.mono le) (WithinAll.mono rest le)) fun {k vs} more values => ?_
    exact .pure fun last => List.forall_mem_cons.mpr
      ⟨value.mono (more.trans last),Value.WithinAll.mono values last⟩

theorem delay_within (inside : env.Within n) {op : Operand} (within : op.Within n) :
    (op.delay env).Within n := by
  cases op with
  | node => exact inside
  | deferred => exact within
  | value => exact within

theorem ofElement_within {v : Value} (within : v.Within n) : (ofElement v).Within n := by
  unfold ofElement
  split
  · exact within
  · exact within

theorem children?_within {op : Operand} {parts : List Operand} (within : op.Within n)
    (found : op.children? = some parts) : WithinAll n parts := by
  cases op with
  | value => cases found
  | node node =>
    obtain ⟨items,-,rfl⟩ := Option.map_eq_some_iff.mp found
    exact List.forall_mem_map.mpr fun _ _ => trivial
  | deferred d =>
    obtain ⟨items,-,rfl⟩ := Option.map_eq_some_iff.mp found
    exact List.forall_mem_map.mpr fun _ _ => within

theorem splice_keeps (name : String) (pos : Position) (env : FrameId) :
    Keeps n WithinAll (splice name pos env) := by
  refine .bind (.lookup name pos env) fun {m list} _ within => ?_
  have walked : Keeps m (fun k (found : List Value × Value) => Value.WithinAll k found.1)
      (Eval.readStore fun s => s.walk s.pairs.size list) :=
    .readStore fun grounded enough => (grounded.walk _ (within.mono enough)).1
  refine .bind walked fun {k found} _ values => ?_
  obtain ⟨list,last⟩ := found
  dsimp only
  split
  · exact .pure fun le => List.forall_mem_map.mpr fun v member =>
      ofElement_within ((values v member).mono le)
  · exact .throw _
  · exact .traced pos env (.fail _)

theorem collect_keeps (env : FrameId) (nodes : List Node) :
    Keeps n WithinAll (collect env nodes) := by
  fun_induction collect env nodes generalizing n with
  | case1 name pos next rest splices ih =>
    refine .bind (splice_keeps name pos env) fun _ spliced => .bind ih fun more ops => ?_
    exact .pure fun le => List.forall_mem_append.mpr
      ⟨spliced.mono (more.trans le),WithinAll.mono ops le⟩
  | case2 name pos next rest plain ih =>
    exact .bind ih fun _ ops => .pure fun le => List.forall_mem_cons.mpr
      ⟨trivial,WithinAll.mono ops le⟩
  | case3 node rest _ ih =>
    exact .bind ih fun _ ops => .pure fun le => List.forall_mem_cons.mpr
      ⟨trivial,WithinAll.mono ops le⟩
  | case4 => exact .pure fun _ => List.forall_mem_nil _

end Operand

/-! Primitives. -/

namespace Arguments

variable {α : Type} {A : Nat → α → Prop} {args : List Value}

theorem one_keeps {f : Value → Eval α} (within : Value.WithinAll n args)
    (next : ∀ {v : Value}, v.Within n → Keeps n A (f v)) : Keeps n A (one f args) := by
  unfold one
  split
  next v => exact next (within v (by simp))
  next => exact .fail _

theorem two_keeps {f : Value → Value → Eval α} (within : Value.WithinAll n args)
    (next : ∀ {v w : Value}, v.Within n → w.Within n → Keeps n A (f v w)) :
    Keeps n A (two f args) := by
  unfold two
  split
  next v w => exact next (within v (by simp)) (within w (by simp))
  next => exact .fail _

theorem three_keeps {f : Value → Value → Value → Eval α} (within : Value.WithinAll n args)
    (next : ∀ {u v w : Value}, u.Within n → v.Within n → w.Within n → Keeps n A (f u v w)) :
    Keeps n A (three f args) := by
  unfold three
  split
  next u v w => exact next (within u (by simp)) (within v (by simp)) (within w (by simp))
  next => exact .fail _

end Arguments

namespace Primitive

open Arguments

theorem asPair_keeps (procedure : String) (v : Value) : Keeps n Any (asPair procedure v) := by
  unfold asPair
  split
  · exact .pure fun _ => trivial
  · exact .fail _

theorem asVector_keeps (procedure : String) (v : Value) : Keeps n Any (asVector procedure v) := by
  unfold asVector
  split
  · exact .pure fun _ => trivial
  · exact .fail _

theorem asIndex_keeps (procedure : String) (length : Nat) (v : Value) :
    Keeps n Any (asIndex procedure length v) := by
  unfold asIndex
  split
  · split
    · exact .pure fun _ => trivial
    · exact .fail _
  · exact .fail _

theorem readItem_keeps (v index : Value) : Keeps n Value.Within (readItem v index) := by
  refine .bind (asVector_keeps _ v) fun {m cell} _ _ => ?_
  have items : Keeps m (fun k (items : Array Value) => ∀ v ∈ items, v.Within k)
      (Eval.readStore fun s => s.items cell) :=
    .readStore fun grounded _ _ member => grounded.items member
  refine .bind items fun {k items} _ within => .bind (asIndex_keeps _ _ index) fun {l i} more _ => ?_
  refine .value ?_
  cases found : items[i]? with
  | none => trivial
  | some w => exact (within w (Array.mem_of_getElem? found)).mono more

theorem writeItem_keeps (v index : Value) {value : Value} (within : value.Within n) :
    Keeps n Value.Within (writeItem v index value) := by
  have sized (cell : VectorId) {m : Nat} : Keeps m Any (Eval.readStore fun s => (s.items cell).size) :=
    .readStore fun _ _ => trivial
  refine .bind (asVector_keeps _ v) fun {m cell} le _ => .bind (sized cell) fun {k _} more _ =>
    .bind (asIndex_keeps _ _ index) fun {l i} most _ => ?_
  have kept := within.mono (le.trans (more.trans most))
  exact .bind (.changeStore fun grounded enough => grounded.setItem cell i (kept.mono enough))
    fun _ _ => .value trivial

theorem run_keeps {resolve : Value → Eval Value} {args : List Value}
    (resolves : ∀ {v : Value}, v.Within n → Keeps n Value.Within (resolve v)) (p : Primitive)
    (within : Value.WithinAll n args) : Keeps n Value.Within (p.run resolve args) := by
  cases p with
  | cons =>
    exact two_keeps within fun head tail => .onStore fun grounded enough =>
      ⟨grounded.cons (head.mono enough) (tail.mono enough),trivial⟩
  | car =>
    exact one_keeps within fun {v} _ => .bind (asPair_keeps _ v) fun _ _ =>
      .readStore fun grounded _ => grounded.head _
  | cdr =>
    exact one_keeps within fun {v} _ => .bind (asPair_keeps _ v) fun _ _ =>
      .readStore fun grounded _ => grounded.tail _
  | setCar =>
    refine two_keeps within fun {v x} _ new => .bind (asPair_keeps _ v) fun le _ => ?_
    exact .bind (.changeStore fun grounded enough => grounded.setHead _ (new.mono (le.trans enough)))
      fun _ _ => .value trivial
  | setCdr =>
    refine two_keeps within fun {v x} _ new => .bind (asPair_keeps _ v) fun le _ => ?_
    exact .bind (.changeStore fun grounded enough => grounded.setTail _ (new.mono (le.trans enough)))
      fun _ _ => .value trivial
  | list => exact .newList within
  | add | mul | sub | div | eq | lt | gt | le | ge => exact .map (.ofFault _) fun _ => trivial
  | isNull | isPair | isNumber | isSymbol | isProcedure | isVector | not =>
    exact one_keeps within fun _ => .value trivial
  | isEq => exact two_keeps within fun _ _ => .value trivial
  | force => exact one_keeps within resolves
  | vector =>
    exact .onStore fun grounded enough =>
      ⟨grounded.newVector fun v member => (within v (by simpa using member)).mono enough,trivial⟩
  | vectorLength =>
    exact one_keeps within fun {v} _ => .bind (asVector_keeps _ v) fun _ _ =>
      .readStore fun _ _ => trivial
  | vectorRef => exact two_keeps within fun {v index} _ _ => readItem_keeps v index
  | vectorSet => exact three_keeps within fun {v index _} _ _ new => writeItem_keeps v index new
  | load => exact .fail _

end Primitive

/-! Closures and transformers. -/

namespace Closure

theorem bindFixed_keeps (env : FrameId) (names : List String) {args : List Value}
    (within : Value.WithinAll n args) : Keeps n Any (bindFixed env names args) := by
  fun_induction bindFixed env names args generalizing n with
  | case1 name names arg args ih =>
    obtain ⟨first,rest⟩ := List.forall_mem_cons.mp within
    exact .bind (.define env name first) fun le _ => ih (Value.WithinAll.mono rest le)
  | case2 => exact .pure fun _ => trivial

theorem bindParams_keeps (params : Params) {args : List Value} (env : FrameId) (pos : Position)
    (within : Value.WithinAll n args) : Keeps n Any (bindParams params args env pos) := by
  unfold bindParams
  split
  · split
    · exact bindFixed_keeps env _ within
    · exact .failAt _ pos env
  · split
    · exact .failAt _ pos env
    · refine .bind (bindFixed_keeps env _ within) fun le _ => ?_
      have rest : Value.WithinAll _ (args.drop params.fixed.length) :=
        fun v member => (within v (List.mem_of_mem_drop member)).mono le
      exact .bind (.newList rest) fun _ list => .define env _ list

theorem call_keeps (keeps : ev.Keeps) {c : Closure} {args : List Value} (pos : Position)
    (inside : c.env.Within n) (within : Value.WithinAll n args) :
    Keeps n Value.Within (c.call ev args pos) := by
  refine .bind (.newChild inside) fun {m env} le child => .bind (.note _) fun {k _} more _ => ?_
  refine .bind (bindParams_keeps c.params env pos (within.mono (le.trans more))) fun most _ => ?_
  exact keeps.body (child.mono (more.trans most)) c.body

end Closure

namespace PatternItem

/-- What the variables of a pattern stand for belongs to the same frames as the operands. -/
def CapturesWithin (n : Nat) (captures : List (String × Capture)) : Prop :=
  ∀ capture ∈ captures, capture.2.Within n

theorem CapturesWithin.mono {captures : List (String × Capture)} (within : CapturesWithin n captures)
    (le : n ≤ m) : CapturesWithin m captures := by
  intro capture member
  have known := within capture member
  obtain ⟨name,capture⟩ := capture
  cases capture with
  | one op => exact Operand.Within.mono known le
  | many ops => exact Operand.WithinAll.mono known le

mutual

theorem capture?_within : (item : PatternItem) → {ops : List Operand} →
    {captures : List (String × Capture)} → Operand.WithinAll n ops →
    item.capture? ops = some captures → CapturesWithin n captures
  | vararg _,_,_,within,found => by
    cases found
    exact List.forall_mem_singleton.mpr within
  | atom _,op :: _,_,within,found => by
    cases found
    exact List.forall_mem_singleton.mpr (within op List.mem_cons_self)
  | keyword _,_ :: _,_,_,found => by
    cases found
    exact fun _ member => nomatch member
  | list sub,op :: _,_,within,found => by
    obtain ⟨parts,children,inner⟩ := Option.bind_eq_some_iff.mp found
    exact captures?_within sub (Operand.children?_within (within op List.mem_cons_self) children) inner

theorem captures?_within : (items : List PatternItem) → {ops : List Operand} →
    {captures : List (String × Capture)} → Operand.WithinAll n ops →
    captures? items ops = some captures → CapturesWithin n captures
  | [],_,_,_,found => by
    cases found
    exact fun _ member => nomatch member
  | item :: items,ops,_,within,found => by
    obtain ⟨first,here,later⟩ := Option.bind_eq_some_iff.mp found
    obtain ⟨rest,there,same⟩ := Option.bind_eq_some_iff.mp later
    cases same
    have tail : Operand.WithinAll n (ops.drop 1) :=
      fun op member => within op (List.mem_of_mem_drop member)
    exact List.forall_mem_append.mpr
      ⟨capture?_within item within here,captures?_within items tail there⟩

end

end PatternItem

open PatternItem

theorem Capture.toValue_keeps {caller : FrameId} (inside : caller.Within n) {capture : Capture}
    (within : capture.Within n) : Keeps n Value.Within (capture.toValue caller) := by
  cases capture with
  | one op => exact .value (Operand.delay_within inside within)
  | many ops =>
    exact .newList (List.forall_mem_map.mpr fun op member =>
      Operand.delay_within inside (within op member))

theorem Capture.bindAll_keeps {caller : FrameId} (inside : caller.Within n) (target : FrameId)
    {captures : List (String × Capture)} (within : CapturesWithin n captures) :
    Keeps n Any (bindAll caller target captures) := by
  induction captures generalizing n with
  | nil => exact .pure fun _ => trivial
  | cons capture captures ih =>
    obtain ⟨name,capture⟩ := capture
    obtain ⟨first,rest⟩ := List.forall_mem_cons.mp within
    refine .bind (toValue_keeps inside first) fun le value => .bind (.define target name value) ?_
    exact fun more _ => ih (inside.mono (le.trans more)) (CapturesWithin.mono rest (le.trans more))

theorem Transformer.expand_keeps (keeps : ev.Keeps) {t : Transformer} {caller : FrameId}
    (pos : Position) (inside : caller.Within n) (own : t.env.Within n)
    (within : Operand.WithinAll n ops) : Keeps n Value.Within (t.expand ev ops caller pos) := by
  unfold Transformer.expand
  split
  · exact .failAt _ pos _
  · split
    · exact .failAt _ pos _
    next captures found =>
      exact .bind (Capture.bindAll_keeps inside t.env (captures?_within _ within found)) fun le _ =>
        keeps.body (own.mono le) _

/-! Special forms. -/

namespace SpecialForm

theorem nodeOf_keeps (pos : Position) (env : FrameId) (op : Operand) :
    Keeps n Any (nodeOf pos env op) := by
  unfold nodeOf
  split
  · exact .pure fun _ => trivial
  · exact .failAt _ pos env

theorem bodyOf_keeps (pos : Position) (env : FrameId) (ops : List Operand) :
    Keeps n Any (bodyOf pos env ops) := by
  induction ops generalizing n with
  | nil => exact .pure fun _ => trivial
  | cons op ops ih =>
    exact .bind (nodeOf_keeps pos env op) fun _ _ => .bind ih fun _ _ => .pure fun _ => trivial

/-- A procedure belongs to the frame in which it is made. -/
theorem newClosure_keeps (params : Params) (body : List Node) (inside : env.Within n) :
    Keeps n Value.Within (newClosure params body env) := by
  have numbered : Keeps n Any (Eval.onStore Store.nextFresh) :=
    .onStore fun grounded _ => ⟨grounded.fresh _,trivial⟩
  exact .bind numbered fun le _ => .value (inside.mono le)

theorem runLambda_keeps (inside : env.Within n) (ops : List Operand) (pos : Position) :
    Keeps n Value.Within (runLambda ops env pos) := by
  unfold runLambda
  split
  · refine .bind (nodeOf_keeps pos env _) fun le _ => .bind (.ofSyntax _) fun more _ =>
      .bind (bodyOf_keeps pos env _) fun most _ => ?_
    exact newClosure_keeps _ _ (inside.mono (le.trans (more.trans most)))
  · exact .fail _

theorem runDefine_keeps (keeps : ev.Keeps) (inside : env.Within n) (within : Operand.WithinAll n ops)
    (pos : Position) : Keeps n Value.Within (runDefine ev ops env pos) := by
  unfold runDefine
  split
  next target op more =>
    have operand : op.Within n := within op (by simp)
    refine .bind (nodeOf_keeps pos env target) fun {m node} le _ => ?_
    split
    · refine .bind (.ofFault _) fun further _ => ?_
      have known := operand.mono (le.trans further)
      exact .bind (Operand.eval_keeps keeps (inside.mono (le.trans further)) known) fun _ value =>
        .bind (.define env _ value) fun _ _ => .value trivial
    · refine .bind (.ofSyntax _) fun {k signature} further _ => ?_
      refine .bind (bodyOf_keeps pos env _) fun {l body} last _ => ?_
      have there := inside.mono (le.trans (further.trans last))
      exact .bind (newClosure_keeps _ _ there) fun _ procedure =>
        .bind (.define env _ procedure) fun _ _ => .value trivial
    · exact .bind (.ofSyntax _) fun _ _ => .value trivial
  next => exact .fail _

theorem runDefineSyntax_keeps (keeps : ev.Keeps) (inside : env.Within n)
    (within : Operand.WithinAll n ops) (pos : Position) :
    Keeps n Value.Within (runDefineSyntax ev ops env pos) := by
  unfold runDefineSyntax
  split
  next target op =>
    have operand : op.Within n := within op (by simp)
    refine .bind (nodeOf_keeps pos env target) fun {m node} le _ => ?_
    split
    · exact .throw _
    · refine .bind (Operand.evalForced_keeps keeps (inside.mono le) (operand.mono le)) ?_
      intro k value _ known
      split
      · exact .bind (.define env _ known) fun _ _ => .value trivial
      · exact .fail _
  next => exact .fail _

theorem rulesOf_keeps (keywords : List String) (pos : Position) (env : FrameId) (ops : List Operand) :
    Keeps n Any (rulesOf keywords pos env ops) := by
  induction ops generalizing n with
  | nil => exact .pure fun _ => trivial
  | cons op ops ih =>
    refine .bind (nodeOf_keeps pos env op) fun {m node} _ _ => ?_
    split
    · exact .failAt _ _ env
    · exact .bind ih fun _ _ => .pure fun _ => trivial

theorem runSyntaxRules_keeps (inside : env.Within n) (ops : List Operand) (pos : Position) :
    Keeps n Value.Within (runSyntaxRules ops env pos) := by
  unfold runSyntaxRules
  split
  · exact .failAt _ pos env
  · split
    · exact .failAt _ pos env
    · refine .bind (rulesOf_keeps _ pos env _) fun {m rules} le _ => ?_
      have numbered : Keeps m Any (Eval.onStore Store.nextFresh) :=
        .onStore fun grounded _ => ⟨grounded.fresh _,trivial⟩
      exact .bind numbered fun more _ => .value (inside.mono (le.trans more))

theorem runQuotation_keeps (within : Operand.WithinAll n ops) :
    Keeps n Value.Within (runQuotation ops) := by
  unfold runQuotation
  split
  next v => exact .value (within (.value v) (by simp))
  next => exact .quote _
  next => exact .quote _
  next => exact .fail _

theorem runConditional_keeps (keeps : ev.Keeps) (inside : env.Within n)
    (within : Operand.WithinAll n ops) : Keeps n Value.Within (runConditional ev ops env) := by
  have branch {op : Operand} {m : Nat} (known : op.Within n) (le : n ≤ m) :
      Keeps m Value.Within (op.eval ev env) :=
    Operand.eval_keeps keeps (inside.mono le) (known.mono le)
  unfold runConditional
  split
  next test yes =>
    refine .bind (Operand.evalForced_keeps keeps inside (within test (by simp))) fun le _ => ?_
    split
    · exact branch (within yes (by simp)) le
    · exact .value trivial
  next test yes no =>
    refine .bind (Operand.evalForced_keeps keeps inside (within test (by simp))) fun le _ => ?_
    split
    · exact branch (within yes (by simp)) le
    · exact branch (within no (by simp)) le
  next => exact .fail _

theorem runSequence_keeps (keeps : ev.Keeps) (inside : env.Within n)
    (within : Operand.WithinAll n ops) : Keeps n Value.Within (runSequence ev env ops) := by
  fun_induction runSequence ev env ops generalizing n with
  | case1 => exact .value trivial
  | case2 op => exact Operand.evalForced_keeps keeps inside (within op (by simp))
  | case3 op ops _ ih =>
    obtain ⟨first,rest⟩ := List.forall_mem_cons.mp within
    exact .bind (Operand.evalForced_keeps keeps inside first) fun le _ =>
      ih (inside.mono le) (Operand.WithinAll.mono rest le)

theorem runForms_keeps (keeps : ev.Keeps) (inside : env.Within n) (within : Operand.WithinAll n ops) :
    Keeps n Value.Within (runForms ev env ops) := by
  fun_induction runForms ev env ops generalizing n with
  | case1 => exact .value trivial
  | case2 op => exact Operand.eval_keeps keeps inside (within op (by simp))
  | case3 op ops _ ih =>
    obtain ⟨first,rest⟩ := List.forall_mem_cons.mp within
    exact .bind (Operand.eval_keeps keeps inside first) fun le _ =>
      ih (inside.mono le) (Operand.WithinAll.mono rest le)

theorem bindingOf?_within {op init : Operand} {name : String} (within : op.Within n)
    (found : bindingOf? op = some (name,init)) : init.Within n := by
  unfold bindingOf? at found
  split at found
  next target value children =>
    obtain ⟨key,-,same⟩ := Option.bind_eq_some_iff.mp found
    cases same
    exact Operand.children?_within within children _ (by simp)
  next => cases found

theorem bindLocals_keeps (keeps : ev.Keeps) (inside : env.Within n) (inner : FrameId) (pos : Position)
    (within : Operand.WithinAll n ops) : Keeps n Any (bindLocals ev env inner pos ops) := by
  induction ops generalizing n with
  | nil => exact .pure fun _ => trivial
  | cons op ops ih =>
    obtain ⟨first,rest⟩ := List.forall_mem_cons.mp within
    unfold bindLocals
    split
    · exact .failAt _ pos env
    next name init found =>
      refine .bind (Operand.evalForced_keeps keeps inside (bindingOf?_within first found)) ?_
      refine fun le value => .bind (.define inner name value) fun more _ => ?_
      exact ih (inside.mono (le.trans more)) (Operand.WithinAll.mono rest (le.trans more))

theorem runLocalBinding_keeps (keeps : ev.Keeps) (inside : env.Within n)
    (within : Operand.WithinAll n ops) (pos : Position) :
    Keeps n Value.Within (runLocalBinding ev ops env pos) := by
  unfold runLocalBinding
  split
  next bindings form forms =>
    obtain ⟨first,rest⟩ := List.forall_mem_cons.mp within
    refine .bind (.newChild inside) fun {m inner} le child => ?_
    split
    · exact .failAt _ pos env
    next locals found =>
      have known := (Operand.children?_within first found).mono le
      refine .bind (bindLocals_keeps keeps (inside.mono le) inner pos known) fun more _ => ?_
      exact runForms_keeps keeps (child.mono more) (Operand.WithinAll.mono rest (le.trans more))
  next => exact .fail _

theorem runDelay_keeps (inside : env.Within n) (within : Operand.WithinAll n ops) :
    Keeps n Value.Within (runDelay ops env) := by
  unfold runDelay
  split
  next op => exact .value (Operand.delay_within inside (within op (by simp)))
  next => exact .fail _

theorem run_keeps (keeps : ev.Keeps) (form : SpecialForm) (inside : env.Within n)
    (within : Operand.WithinAll n ops) (pos : Position) :
    Keeps n Value.Within (form.run ev ops env pos) := by
  cases form with
  | lambda => exact runLambda_keeps inside ops pos
  | define => exact runDefine_keeps keeps inside within pos
  | defineSyntax => exact runDefineSyntax_keeps keeps inside within pos
  | syntaxRules => exact runSyntaxRules_keeps inside ops pos
  | quotation => exact runQuotation_keeps within
  | conditional => exact runConditional_keeps keeps inside within
  | sequence => exact runSequence_keeps keeps inside within
  | localBinding => exact runLocalBinding_keeps keeps inside within pos
  | delay => exact runDelay_keeps inside within

end SpecialForm

/-! One step, and evaluators of bounded depth. -/

namespace Evaluator

theorem operate_keeps (keeps : ev.Keeps) {op : Value} (operator : op.Within n) (inside : env.Within n)
    (within : Operand.WithinAll n ops) (pos : Position) :
    Eval.Keeps n Value.Within (ev.operate op ops env pos) := by
  unfold operate
  split
  next f => exact f.run_keeps keeps inside within pos
  next p =>
    exact .bind (Operand.evalAll_keeps keeps inside within) fun _ args => p.run_keeps keeps.force args
  next c =>
    exact .bind (Operand.evalAll_keeps keeps inside within) fun le args =>
      c.call_keeps keeps pos (FrameId.Within.mono operator le) args
  next t =>
    exact .bind (.note _) fun le _ => t.expand_keeps keeps pos (inside.mono le)
      (FrameId.Within.mono operator le) (within.mono le)
  next =>
    have shown : Eval.Keeps n Any (Eval.readStore fun s => s.text op) := .readStore fun _ _ => trivial
    exact .bind shown fun _ _ => .failAt _ pos env

theorem evalStep_keeps (keeps : ev.Keeps) (node : Node) (inside : env.Within n) :
    Eval.Keeps n Value.Within (ev.evalStep node env) := by
  unfold evalStep
  split
  · exact .value trivial
  · exact .value trivial
  · exact .value trivial
  · exact .value trivial
  · exact .quote _
  · exact .quote _
  · exact .lookup _ _ env
  · exact .value trivial
  next operator args pos =>
    refine .bind (keeps.eval operator inside) fun le value => .bind (keeps.force value) fun more op => ?_
    refine .bind (Operand.collect_keeps env args) fun most operands => .traced pos env ?_
    have there := inside.mono (le.trans (more.trans most))
    exact operate_keeps keeps (op.mono most) there operands pos
  · exact .throw _
  · exact .throw _

theorem forceStep_keeps (keeps : ev.Keeps) {v : Value} (within : v.Within n) :
    Eval.Keeps n Value.Within (ev.forceStep v) := by
  unfold forceStep
  split
  next d => exact .bind (keeps.eval d.node within) fun _ value => keeps.force value
  next => exact .value within

/-- Evaluation keeps frames a forest, at any depth. -/
theorem ofFuel_keeps (fuel : Nat) : (ofFuel fuel).Keeps := by
  induction fuel with
  | zero => exact ⟨fun _ _ _ => .throw _,fun _ => .throw _⟩
  | succ fuel ih => exact ⟨fun node _ => evalStep_keeps ih node,forceStep_keeps ih⟩

end Evaluator

theorem evaluate_keeps (keeps : ev.Keeps) (text : String) (source : Option String)
    (inside : env.Within n) : Keeps n Value.Within (evaluate ev text source env) := by
  have loaded (p : Program) {m : Nat} : Keeps m Any p.load :=
    .onStore fun grounded _ => ⟨grounded.fresh _,trivial⟩
  have read : Keeps n Any (Program.read text source) := .bind (.ofSyntax _) fun {_ p} _ _ => loaded p
  refine .bind read fun {m p} le _ => .bind ?_ fun _ value => keeps.force value
  unfold Program.run
  split
  · exact .fail _
  · exact keeps.body (inside.mono le) p.forms

end MiniScheme
