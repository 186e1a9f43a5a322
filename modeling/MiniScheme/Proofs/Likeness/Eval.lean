import MiniScheme.Proofs.Likeness.Store

/-! Like computations. From like stores they come to like results in like stores, or to errors that
differ in places only. Evaluation takes like programs to like computations. -/
namespace MiniScheme

structure RuntimeError.Like (L : Likeness) (e f : RuntimeError) : Prop where
  fault : e.fault = f.fault
  pos : Option.Rel L.place e.pos f.pos
  env : e.env = f.env
  frames : Rows (fun x y => L.place x.1 y.1 ∧ x.2 = y.2) e.frames f.frames

inductive Failure.Like (L : Likeness) : Failure → Failure → Prop where
  | reading {e f : SyntaxError} : SyntaxError.Like L e f → Like L (.reading e) (.reading f)
  | running {e f : RuntimeError} : RuntimeError.Like L e f → Like L (.running e) (.running f)
  | outOfFuel : Like L .outOfFuel .outOfFuel

/-- Tracers take no part in likeness, as they keep the places of calls. -/
def State.Like (L : Likeness) (s t : State) : Prop := Store.Like L s.store t.store

/-- Likeness of what computations end in. -/
inductive Outcome.Like (L : Likeness) {α : Type} (A : α → α → Prop) :
    EStateM.Result Failure State α → EStateM.Result Failure State α → Prop where
  | ok {a b : α} {s t : State} : A a b → State.Like L s t → Like L A (.ok a s) (.ok b t)
  | error {x y : Failure} {s t : State} : Failure.Like L x y → State.Like L s t →
      Like L A (.error x s) (.error y t)

def Eval.Like (L : Likeness) {α : Type} (A : α → α → Prop) (x y : Eval α) : Prop :=
  ∀ ⦃s t : State⦄, State.Like L s t → Outcome.Like L A (x s) (y t)

/-- Evaluators that take like forms and values to like computations. -/
structure Evaluator.Like (L : Likeness) (ev other : Evaluator) : Prop where
  eval {n m : Node} (env : FrameId) : Node.Like L n m →
    Eval.Like L (Value.Like L) (ev.eval n env) (other.eval m env)
  force {v w : Value} : Value.Like L v w → Eval.Like L (Value.Like L) (ev.force v) (other.force w)

variable {L : Likeness}

theorem RuntimeError.Like.reached {e f : RuntimeError} (like : Like L e f) : e.reached = f.reached := by
  have last := like.frames.back?
  rw [RuntimeError.reached,RuntimeError.reached,like.env]
  generalize e.frames.back? = x,f.frames.back? = y at last ⊢
  cases last with
  | some frame => exact congrArg some frame.2
  | none => rfl

theorem Failure.Like.passThrough {x y : Failure} (like : Like L x y) {p q : Position}
    (place : L.place p q) (env : FrameId) : Like L (x.passThrough p env) (y.passThrough q env) := by
  cases like with
  | reading like => exact .reading like
  | outOfFuel => exact .outOfFuel
  | running like =>
    refine .running ?_
    rw [RuntimeError.passThrough,RuntimeError.passThrough,like.reached]
    split
    · exact like
    · exact { like with frames := like.frames.push ⟨place,rfl⟩ }

namespace Eval.Like

variable {α β : Type} {A : α → α → Prop} {B : β → β → Prop} {p q : Position}

theorem pure {a b : α} (like : A a b) : Like L A (Pure.pure a) (Pure.pure b) :=
  fun _ _ state => .ok like state

theorem throw {x y : Failure} (like : Failure.Like L x y) :
    Like L A (MonadExcept.throw x) (MonadExcept.throw y) := fun _ _ state => .error like state

theorem bind {x y : Eval α} {f g : α → Eval β} (first : Like L A x y)
    (next : ∀ {a b}, A a b → Like L B (f a) (g b)) : Like L B (x >>= f) (y >>= g) := by
  intro s t state
  have start := first state
  simp only [Bind.bind,EStateM.bind]
  generalize x s = left,y t = right at start ⊢
  cases start with
  | ok like state => exact next like state
  | error like state => exact .error like state

theorem map {x y : Eval α} {f : α → β} (first : Like L A x y)
    (next : ∀ {a b}, A a b → B (f a) (f b)) : Like L B (f <$> x) (f <$> y) := by
  intro s t state
  have start := first state
  simp only [Functor.map,EStateM.map]
  generalize x s = left,y t = right at start ⊢
  cases start with
  | ok like state => exact .ok (next like) state
  | error like state => exact .error like state

theorem traced {x y : Eval α} (place : L.place p q) (env : FrameId) (inside : Like L A x y) :
    Like L A (Eval.traced p env x) (Eval.traced q env y) := by
  intro s t state
  have start := inside state
  simp only [Eval.traced]
  generalize x s = left,y t = right at start ⊢
  cases start with
  | ok like state => exact .ok like state
  | error like state => exact .error (like.passThrough place env) state

theorem readStore {f g : Store → α} (next : ∀ {s t}, Store.Like L s t → A (f s) (g t)) :
    Like L A (Eval.readStore f) (Eval.readStore g) := fun _ _ state => .ok (next state) state

theorem onStore {f g : Store → α × Store}
    (next : ∀ {s t}, Store.Like L s t → Store.Like.Gives L A (f s) (g t)) :
    Like L A (Eval.onStore f) (Eval.onStore g) :=
  fun _ _ state => .ok (next state).1 (next state).2

theorem changeStore {f g : Store → Store}
    (next : ∀ {s t}, Store.Like L s t → Store.Like L (f s) (g t)) :
    Like L Eq (Eval.changeStore f) (Eval.changeStore g) := fun _ _ state => .ok rfl (next state)

theorem note (call other : CallRecord) : Like L Eq (Eval.note call) (Eval.note other) :=
  fun _ _ state => .ok rfl state

theorem fail (fault : RuntimeFault) : Like L A (Eval.fail fault) (Eval.fail fault) :=
  throw (.running ⟨rfl,.none,rfl,.nil⟩)

theorem failAt (fault : RuntimeFault) (place : L.place p q) (env : FrameId) :
    Like L A (Eval.failAt fault p env) (Eval.failAt fault q env) :=
  throw (.running ⟨rfl,.some place,rfl,.nil⟩)

theorem ofSyntax {x y : Except SyntaxError α} (read : Reads L A x y) :
    Like L A (Eval.ofSyntax x) (Eval.ofSyntax y) := by
  cases read with
  | ok like => exact pure like
  | error like => exact throw (.reading like)

/-- A check of arguments that does not look at places. -/
theorem ofFault {x : Except RuntimeFault α} (next : ∀ a, x = .ok a → A a a) :
    Like L A (Eval.ofFault x) (Eval.ofFault x) := by
  cases x with
  | ok a => exact pure (next a rfl)
  | error fault => exact fail fault

theorem define (env : FrameId) (name : String) {v w : Value} (like : Value.Like L v w) :
    Like L Eq (Eval.define env name v) (Eval.define env name w) :=
  changeStore fun store => store.define env name like

theorem newChild (parent : FrameId) : Like L Eq (Eval.newChild parent) (Eval.newChild parent) :=
  onStore fun store => store.newFrame (some parent)

theorem newList {vs ws : List Value} (like : Value.LikeAll L vs ws) :
    Like L (Value.Like L) (Eval.newList vs) (Eval.newList ws) := onStore fun store => store.list like

theorem quote {x y : Except SyntaxError Datum} (read : Reads L (Datum.Like L) x y) :
    Like L (Value.Like L) (Eval.quote x) (Eval.quote y) :=
  bind (ofSyntax read) fun like => onStore fun store => store.build like

theorem lookup (name : String) (place : L.place p q) (env : FrameId) :
    Like L (Value.Like L) (Eval.lookup name p env) (Eval.lookup name q env) := by
  refine bind (readStore fun store => store.lookup env name) fun found => ?_
  cases found with
  | some like => exact pure like
  | none => exact failAt _ place env

end Eval.Like

section Operands

variable {ev other : Evaluator}

namespace Evaluator.Like

theorem body (like : Like L ev other) (env : FrameId) {ns ms : List Node}
    (forms : Node.LikeAll L ns ms) :
    Eval.Like L (Value.Like L) (ev.body env ns) (other.body env ms) := by
  induction forms with
  | nil => exact .pure .unspecified
  | cons head tail ih =>
    cases tail with
    | nil => exact like.eval env head
    | cons => exact .bind (like.eval env head) fun _ => ih

end Evaluator.Like

namespace Operand

theorem Like.node? {a b : Operand} (like : Like L a b) :
    Option.Rel (Node.Like L) a.node? b.node? := by
  cases like with
  | node like => exact .some like
  | deferred like =>
    obtain ⟨env,like⟩ := like
    exact .some like
  | value => exact .none

theorem Like.name? {a b : Operand} (like : Like L a b) :
    a.node?.bind Node.name? = b.node?.bind Node.name? := by
  have found := like.node?
  generalize a.node? = x,b.node? = y at found ⊢
  cases found with
  | some like => exact like.name?
  | none => rfl

theorem Like.delay {a b : Operand} (like : Like L a b) (env : FrameId) :
    Value.Like L (a.delay env) (b.delay env) := by
  cases like with
  | node like => exact .delayed (.intro env like)
  | deferred like => exact .delayed like
  | value like => exact like

theorem Like.children? {a b : Operand} (like : Like L a b) :
    Option.Rel (LikeAll L) a.children? b.children? := by
  cases like with
  | value => exact .none
  | node like =>
    cases like with
    | list items _ =>
      exact .some (List.rel_map (fun _ _ item => .node item) items)
    | string | char | boolean | number | quote | symbol | dot | sharp => exact .none
  | deferred like =>
    obtain ⟨env,like⟩ := like
    cases like with
    | list items _ =>
      exact .some (List.rel_map (fun _ _ item => .deferred (.intro env item)) items)
    | string | char | boolean | number | quote | symbol | dot | sharp => exact .none

theorem ofElement_like {v w : Value} (like : Value.Like L v w) :
    Like L (ofElement v) (ofElement w) := by
  have whole := like
  cases like with
  | delayed like => exact .deferred like
  | unspecified | nil | boolean | char | string | symbol | number | pair | vector | closure
  | transformer | primitive | form => exact .value whole

theorem eval_like (like : Evaluator.Like L ev other) (env : FrameId) {a b : Operand}
    (operand : Like L a b) : Eval.Like L (Value.Like L) (a.eval ev env) (b.eval other env) := by
  cases operand with
  | node node => exact like.eval env node
  | deferred fragment => exact .pure (.delayed fragment)
  | value value => exact .pure value

theorem evalForced_like (like : Evaluator.Like L ev other) (env : FrameId) {a b : Operand}
    (operand : Like L a b) :
    Eval.Like L (Value.Like L) (a.evalForced ev env) (b.evalForced other env) :=
  .bind (eval_like like env operand) like.force

theorem evalAll_like (like : Evaluator.Like L ev other) (env : FrameId) {as bs : List Operand}
    (operands : LikeAll L as bs) :
    Eval.Like L (Value.LikeAll L) (evalAll ev env as) (evalAll other env bs) := by
  induction operands with
  | nil => exact .pure .nil
  | cons head _ ih =>
    exact .bind (evalForced_like like env head) fun first =>
      .bind ih fun rest => .pure (.cons first rest)

/-- What is found along like lists. -/
def LikeWalk (L : Likeness) (x y : List Value × Value) : Prop :=
  Value.LikeAll L x.1 y.1 ∧ Value.Like L x.2 y.2

theorem splice_like (name : String) {p q : Position} (place : L.place p q) (env : FrameId) :
    Eval.Like L (LikeAll L) (splice name p env) (splice name q env) := by
  refine .bind (.lookup name place env) fun {v w} list => .bind (A := LikeWalk L) (.readStore ?_) ?_
  · intro s t store
    rw [store.pairs.size]
    exact store.walk _ list
  · rintro ⟨values,last⟩ ⟨others,ending⟩ ⟨items,like⟩
    cases like with
    | nil => exact .pure (List.rel_map (fun _ _ item => ofElement_like item) items)
    | pair => exact .throw .outOfFuel
    | unspecified | boolean | char | string | symbol | number | vector | closure | transformer
    | delayed | primitive | form => exact .traced place env (.fail _)

theorem collect_like (env : FrameId) {ns ms : List Node} (nodes : Node.LikeAll L ns ms) :
    Eval.Like L (LikeAll L) (collect env ns) (collect env ms) := by
  -- A splice takes two nodes at once, so this is no induction on the list.
  cases nodes with
  | nil => exact .pure .nil
  | cons head tail =>
    have item {x y : Eval (List Operand)} (ops : Eval.Like L (LikeAll L) x y) :
        Eval.Like L (LikeAll L) (x >>= fun ops => Pure.pure (.node _ :: ops))
          (y >>= fun ops => Pure.pure (.node _ :: ops)) :=
      .bind ops fun ops => .pure (.cons (.node head) ops)
    have rest := collect_like env tail
    cases head with
    | symbol name place =>
      cases tail with
      | nil => exact item rest
      | cons next more =>
        rw [collect,collect,next.isEllipsis]
        split
        · exact .bind (splice_like name place env) fun spliced =>
            .bind (collect_like env more) fun ops => .pure (List.rel_append spliced ops)
        · exact item rest
    | string | char | boolean | number | quote | list | dot | sharp => exact item rest
termination_by sizeOf ns

end Operand

end Operands

section Primitives

variable {α : Type} {A : α → α → Prop} {vs ws : List Value}

namespace Arguments

theorem one_like {f g : Value → Eval α} (args : Value.LikeAll L vs ws)
    (next : ∀ {v w}, Value.Like L v w → Eval.Like L A (f v) (g w)) :
    Eval.Like L A (one f vs) (one g ws) := by
  have same := args.length_eq
  cases args with
  | nil => exact .fail _
  | cons first rest =>
    cases rest with
    | nil => exact next first
    | cons => simp only [one,same]; exact .fail _

theorem two_like {f g : Value → Value → Eval α} (args : Value.LikeAll L vs ws)
    (next : ∀ {a b c d}, Value.Like L a b → Value.Like L c d → Eval.Like L A (f a c) (g b d)) :
    Eval.Like L A (two f vs) (two g ws) := by
  have same := args.length_eq
  cases args with
  | nil => exact .fail _
  | cons first rest =>
    cases rest with
    | nil => exact .fail _
    | cons second rest =>
      cases rest with
      | nil => exact next first second
      | cons => simp only [two,same]; exact .fail _

theorem three_like {f g : Value → Value → Value → Eval α} (args : Value.LikeAll L vs ws)
    (next : ∀ {a b c d x y}, Value.Like L a b → Value.Like L c d → Value.Like L x y →
      Eval.Like L A (f a c x) (g b d y)) : Eval.Like L A (three f vs) (three g ws) := by
  have same := args.length_eq
  cases args with
  | nil => exact .fail _
  | cons first rest =>
    cases rest with
    | nil => exact .fail _
    | cons second rest =>
      cases rest with
      | nil => exact .fail _
      | cons third rest =>
        cases rest with
        | nil => exact next first second third
        | cons => simp only [three,same]; exact .fail _

theorem checkKinds_like (procedure : String) (guards : List (Kind → Bool))
    (args : Value.LikeAll L vs ws) :
    checkKinds procedure guards vs = checkKinds procedure guards ws := by
  induction args generalizing guards with
  | nil => cases guards <;> rfl
  | cons head _ ih =>
    cases guards with
    | nil => rfl
    | cons guard guards => cases guards <;> simp only [checkKinds,head.kind,ih]

theorem number?_like {v w : Value} (like : Value.Like L v w) :
    v.number? = w.number? ∧ ∀ n ∈ v.number?, L.number n := by
  cases like with
  | number known =>
    refine ⟨rfl,?_⟩
    rintro _ ⟨⟩
    exact known
  | unspecified | nil | boolean | char | string | symbol | pair | vector | closure | transformer
  | delayed | primitive | form => exact ⟨rfl,by rintro _ ⟨⟩⟩

/-- Like arguments have the same numbers, and these are numbers that may occur. -/
theorem numbers_like (procedure : String) (guard : Kind → Bool) (args : Value.LikeAll L vs ws) :
    numbers procedure guard vs = numbers procedure guard ws ∧
      ∀ ns, numbers procedure guard vs = .ok ns → ∀ n ∈ ns, L.number n := by
  have found : vs.filterMap Value.number? = ws.filterMap Value.number? ∧
      ∀ n ∈ vs.filterMap Value.number?, L.number n := by
    induction args with
    | nil => exact ⟨rfl,by simp⟩
    | cons head _ ih =>
      obtain ⟨same,known⟩ := number?_like head
      rw [List.filterMap_cons,List.filterMap_cons,← same]
      cases value : Value.number? _ with
      | none => exact ih
      | some n =>
        refine ⟨congrArg (n :: ·) ih.1,?_⟩
        intro m member
        rcases List.mem_cons.mp member with rfl | rest
        · exact known m value
        · exact ih.2 m rest
  refine ⟨by rw [numbers,numbers,checkKinds_like procedure [guard] args,found.1],?_⟩
  intro ns passed
  rw [numbers] at passed
  cases check : checkKinds procedure [guard] vs with
  | error =>
    rw [check] at passed
    contradiction
  | ok =>
    rw [check] at passed
    cases passed
    exact found.2

end Arguments

namespace Primitive

variable {op : Binary}

theorem foldlM_number (known : op ∈ operations) {ns : List Number} {start result : Number}
    (first : L.number start) (all : ∀ n ∈ ns, L.number n) (folded : ns.foldlM op start = .ok result) :
    L.number result := by
  induction ns generalizing start with
  | nil =>
    cases folded
    exact first
  | cons n ns ih =>
    rw [List.foldlM_cons] at folded
    cases step : op start n with
    | error =>
      rw [step] at folded
      contradiction
    | ok next =>
      rw [step] at folded
      have here := L.arithmetic known first (all n List.mem_cons_self) step
      exact ih here (fun m member => all m (List.mem_cons_of_mem n member)) folded

/-- Arithmetic that gives the same number of like arguments, and one that may occur. -/
def LikeNumber (L : Likeness) (x y : Except RuntimeFault Number) : Prop :=
  x = y ∧ ∀ n, x = .ok n → L.number n

theorem accumulate_like (procedure : String) (i : Nat) (known : op ∈ operations)
    (args : Value.LikeAll L vs ws) : LikeNumber L (accumulate procedure (.integer i) op vs)
      (accumulate procedure (.integer i) op ws) := by
  obtain ⟨same,all⟩ := Arguments.numbers_like procedure Kind.isNumber args
  refine ⟨by rw [accumulate,accumulate,same],?_⟩
  intro n folded
  rw [accumulate] at folded
  cases passed : Arguments.numbers procedure Kind.isNumber vs with
  | error =>
    rw [passed] at folded
    contradiction
  | ok ns =>
    rw [passed] at folded
    exact foldlM_number known (L.integer i) (all ns passed) folded

theorem reduce_like (procedure : String) (i : Nat) (known : op ∈ operations)
    (args : Value.LikeAll L vs ws) : LikeNumber L (reduce procedure (.integer i) op vs)
      (reduce procedure (.integer i) op ws) := by
  obtain ⟨same,all⟩ := Arguments.numbers_like procedure Kind.isNumber args
  refine ⟨by rw [reduce,reduce,same,args.length_eq],?_⟩
  intro n folded
  rw [reduce] at folded
  cases enough : Arguments.atLeast 1 vs.length with
  | error =>
    rw [enough] at folded
    contradiction
  | ok =>
    cases passed : Arguments.numbers procedure Kind.isNumber vs with
    | error =>
      rw [enough,passed] at folded
      contradiction
    | ok ns =>
      rw [enough,passed] at folded
      have each := all ns passed
      match ns with
      | [] =>
        cases folded
        exact L.integer i
      | [m] => exact L.arithmetic known (L.integer i) (each m (by simp)) folded
      | m :: k :: rest =>
        exact foldlM_number known (each m (by simp)) (fun a member => each a (by simp [member])) folded

theorem arithmetic_like {x y : Except RuntimeFault Number} (like : LikeNumber L x y) :
    Eval.Like L (Value.Like L) (arithmetic x) (arithmetic y) := by
  obtain ⟨rfl,known⟩ := like
  refine .map (A := fun n m => n = m ∧ L.number n) (.ofFault fun n result => ⟨rfl,known n result⟩) ?_
  rintro n _ ⟨rfl,known⟩
  exact .number known

theorem comparison_like (accept : Ordering → Bool) (p : Primitive) (args : Value.LikeAll L vs ws) :
    Eval.Like L (Value.Like L) (comparison accept p vs) (comparison accept p ws) := by
  have same : compareChain p.name accept vs = compareChain p.name accept ws := by
    rw [compareChain,compareChain,(Arguments.numbers_like p.name Kind.isReal args).1,args.length_eq]
  rw [comparison,comparison,same]
  refine .map (A := Eq) (.ofFault fun _ _ => rfl) ?_
  rintro b _ rfl
  exact .boolean b

theorem kindTest_like (accept : Kind → Bool) (args : Value.LikeAll L vs ws) :
    Eval.Like L (Value.Like L) (kindTest accept vs) (kindTest accept ws) := by
  refine Arguments.one_like args fun like => ?_
  rw [like.kind]
  exact .pure (.boolean _)

theorem asPair_like (procedure : String) {v w : Value} (like : Value.Like L v w) :
    Eval.Like L Eq (asPair procedure v) (asPair procedure w) := by
  cases like with
  | pair => exact .pure rfl
  | unspecified | nil | boolean | char | string | symbol | number | vector | closure | transformer
  | delayed | primitive | form => exact .fail _

theorem asVector_like (procedure : String) {v w : Value} (like : Value.Like L v w) :
    Eval.Like L Eq (asVector procedure v) (asVector procedure w) := by
  cases like with
  | vector => exact .pure rfl
  | unspecified | nil | boolean | char | string | symbol | number | pair | closure | transformer
  | delayed | primitive | form => exact .fail _

theorem asIndex_like (procedure : String) (length : Nat) {v w : Value} (like : Value.Like L v w) :
    Eval.Like L Eq (asIndex procedure length v) (asIndex procedure length w) := by
  cases like with
  | @number n =>
    unfold asIndex
    split
    · split
      · exact .pure rfl
      · exact .fail _
    · exact .fail _
  | unspecified | nil | boolean | char | string | symbol | pair | vector | closure | transformer
  | delayed | primitive | form => exact .fail _

theorem readItem_like {a b c d : Value} (vector : Value.Like L a b) (index : Value.Like L c d) :
    Eval.Like L (Value.Like L) (readItem a c) (readItem b d) := by
  refine .bind (asVector_like _ vector) ?_
  rintro cell _ rfl
  refine .bind (.readStore fun store => store.items cell) fun {xs ys} rows => ?_
  rw [rows.size]
  refine .bind (asIndex_like _ _ index) ?_
  rintro i _ rfl
  refine .pure ?_
  have found := rows.get? i
  generalize xs[i]? = x,ys[i]? = y at found ⊢
  cases found with
  | some like => exact like
  | none => exact .unspecified

theorem writeItem_like {a b c d x y : Value} (vector : Value.Like L a b) (index : Value.Like L c d)
    (value : Value.Like L x y) : Eval.Like L (Value.Like L) (writeItem a c x) (writeItem b d y) := by
  refine .bind (asVector_like _ vector) ?_
  rintro cell _ rfl
  refine .bind (A := Eq) (.readStore fun store => (store.items cell).size) ?_
  rintro length _ rfl
  refine .bind (asIndex_like _ _ index) ?_
  rintro i _ rfl
  exact .bind (.changeStore fun store => store.setItem cell i value) fun _ => .pure .unspecified

theorem run_like {resolve other : Value → Eval Value}
    (like : ∀ {v w}, Value.Like L v w → Eval.Like L (Value.Like L) (resolve v) (other w))
    (p : Primitive) (args : Value.LikeAll L vs ws) :
    Eval.Like L (Value.Like L) (p.run resolve vs) (p.run other ws) := by
  cases p with
  | cons => exact Arguments.two_like args fun head tail => .onStore fun store => store.cons head tail
  | car =>
    refine Arguments.one_like args fun like => .bind (asPair_like _ like) ?_
    rintro cell _ rfl
    exact .readStore fun store => store.head cell
  | cdr =>
    refine Arguments.one_like args fun like => .bind (asPair_like _ like) ?_
    rintro cell _ rfl
    exact .readStore fun store => store.tail cell
  | setCar =>
    refine Arguments.two_like args fun like value => .bind (asPair_like _ like) ?_
    rintro cell _ rfl
    exact .bind (.changeStore fun store => store.setHead cell value) fun _ => .pure .unspecified
  | setCdr =>
    refine Arguments.two_like args fun like value => .bind (asPair_like _ like) ?_
    rintro cell _ rfl
    exact .bind (.changeStore fun store => store.setTail cell value) fun _ => .pure .unspecified
  | list => exact .newList args
  | add | mul => exact arithmetic_like (accumulate_like _ _ (by simp) args)
  | sub | div => exact arithmetic_like (reduce_like _ _ (by simp) args)
  | eq | lt | gt | le | ge => exact comparison_like _ _ args
  | isPair | isNumber | isVector => exact kindTest_like _ args
  | isNull | isSymbol | isProcedure => exact kindTest_like (· == _) args
  | isEq =>
    refine Arguments.two_like args fun left right => ?_
    rw [left.eqv right]
    exact .pure (.boolean _)
  | not =>
    refine Arguments.one_like args fun like => ?_
    rw [like.isTrue]
    exact .pure (.boolean _)
  | force => exact Arguments.one_like args like
  | vector => exact .onStore fun store => store.newVector args
  | vectorLength =>
    refine Arguments.one_like args fun like => .bind (asVector_like _ like) ?_
    rintro cell _ rfl
    refine .readStore fun store => ?_
    rw [(store.items cell).size]
    exact .number (L.integer _)
  | vectorRef => exact Arguments.two_like args readItem_like
  | vectorSet => exact Arguments.three_like args writeItem_like
  | load => exact .fail _

end Primitive

end Primitives
end MiniScheme
