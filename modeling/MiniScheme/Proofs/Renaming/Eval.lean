import MiniScheme.Proofs.Eval.Fuel
import MiniScheme.Proofs.Prompt.Once
import MiniScheme.Proofs.Renaming.Store

/-! Computations in a mirror. From a store and what the mirror shows of it, they come to renamed
results, or to the same failure, and to a store and what the mirror shows of it. Numbers are compared
and handed on, but nothing else is done with them, so evaluation is such a computation. -/
namespace MiniScheme

open Eval

def RuntimeError.rename (r : Renaming) (e : RuntimeError) : RuntimeError :=
  { e with env := e.env.map r.frame, frames := e.frames.map fun frame => (frame.1,r.frame frame.2) }

def Failure.rename (r : Renaming) : Failure → Failure
  | running e => running (e.rename r)
  | other => other

/-- Frames are still there, with their parents, and numbers once given out are not free again. -/
structure Store.Older (s t : Store) : Prop where
  grows : s.Grows t
  fresh : s.fresh ≤ t.fresh

/-- A store that a run may come to: parents are older than their children, and the numbers given out
are below the limit. -/
structure Mirror.Admits (m : Mirror) (s : Store) : Prop where
  parents {f parent : FrameId} : s.parent? f = some (some parent) → parent.index < f.index
  fresh : s.fresh ≤ m.limit

/-- The second outcome is the first in the mirror, where `f` renames results. -/
inductive Outcome.Mirrors (m : Mirror) {α β : Type} (f : α → β) : Outcome α → Outcome β → Prop where
  | ok {a : α} {s t : State} : m.Shows s.store t.store → Mirrors m f (.ok a s) (.ok (f a) t)
  | error {failure : Failure} {s t : State} : m.Shows s.store t.store →
      Mirrors m f (.error failure s) (.error (failure.rename m.toRenaming) t)

/-- The second computation is the first in the mirror. Frames made with parents that do not exist
would spoil this, but they would also stay and be seen in the end. -/
structure Eval.Mirrors (m : Mirror) {α β : Type} (f : α → β) (x : Eval α) (y : Eval β) : Prop where
  older (s : State) : s.store.Older (x.after s).store
  shows {s t : State} : m.Shows s.store t.store → m.Admits (x.after s).store →
    Outcome.Mirrors m f (x s) (y t)

structure Evaluator.Mirrors (m : Mirror) (ev other : Evaluator) : Prop where
  eval (n : Node) (env : FrameId) :
    Eval.Mirrors m m.value (ev.eval n env) (other.eval n (m.frame env))
  force (v : Value) :
    Eval.Mirrors m m.value (ev.force v) (other.force (m.value v))

variable {m : Mirror}

theorem Store.Older.refl (s : Store) : s.Older s := ⟨.refl s,Nat.le_refl _⟩

theorem Store.Older.trans {s t u : Store} (first : s.Older t) (second : t.Older u) : s.Older u :=
  ⟨first.grows.trans second.grows,Nat.le_trans first.fresh second.fresh⟩

/-- An operation on cells has only to leave the frames alone. -/
theorem Store.Older.of_frames {s t : Store} (frames : t.frames = s.frames) (fresh : s.fresh ≤ t.fresh) :
    s.Older t := by
  refine ⟨fun f parent known => ?_,fresh⟩
  rwa [parent?,frame?,frames]

theorem Store.older_list (s : Store) (values : List Value) : s.Older (s.list values).2 := by
  rw [list_eq]
  exact .of_frames rfl (Nat.le_refl _)

mutual

theorem Store.older_build (s : Store) : (d : Datum) → s.Older (s.build d).2
  | .unspecified | .nil | .boolean _ | .char _ | .string _ _ | .symbol _ | .number _ => .refl s
  | .pair head tail =>
    ((s.older_build head).trans ((s.build head).2.older_build tail)).trans
      (.of_frames rfl (Nat.le_refl _))
  | .vector items => (s.older_buildAll items).trans (.of_frames rfl (Nat.le_refl _))

theorem Store.older_buildAll (s : Store) : (ds : List Datum) → s.Older (s.buildAll ds).2
  | [] => .refl s
  | d :: ds => (s.older_build d).trans ((s.build d).2.older_buildAll ds)

end

theorem Mirror.Admits.of_older {s t : Store} (admits : m.Admits t) (older : s.Older t) : m.Admits s :=
  ⟨fun known => admits.parents (older.grows _ _ known),Nat.le_trans older.fresh admits.fresh⟩

theorem RuntimeError.reached_rename (r : Renaming) (e : RuntimeError) :
    (e.rename r).reached = e.reached.map r.frame := by
  simp only [reached,rename,Array.back?_map]
  cases e.frames.back? <;> rfl

theorem Failure.passThrough_rename (m : Mirror) (failure : Failure) (pos : Position) (env : FrameId) :
    (failure.rename m.toRenaming).passThrough pos (m.frame env) =
      (failure.passThrough pos env).rename m.toRenaming := by
  cases failure with
  | reading e => rfl
  | outOfFuel => rfl
  | running e =>
    have met : (e.rename m.toRenaming).reached = some (m.frame env) ↔ e.reached = some env := by
      rw [RuntimeError.reached_rename]
      cases e.reached with
      | none => simp
      | some f => simp [m.frame_injective.eq_iff]
    simp only [passThrough,rename,RuntimeError.passThrough,met]
    split
    · rfl
    · simp [RuntimeError.rename]

/-- What is left behind in the middle is older than what is left in the end. -/
theorem Eval.older_bind {α β : Type} {x : Eval α} {f : α → Eval β}
    (next : ∀ a (s : State), s.store.Older ((f a).after s).store) (s : State) :
    (x.after s).store.Older ((x >>= f).after s).store := by
  simp only [Eval.after,bind,EStateM.bind]
  cases x s with
  | ok a middle => exact next a middle
  | error failure middle => exact .refl _

namespace Eval.Mirrors

variable {α β γ δ : Type} {f : α → β} {g : γ → δ} {pos : Position}

theorem pure {a : α} {b : β} (same : b = f a) : Mirrors m f (Pure.pure a) (Pure.pure b) := by
  subst same
  exact ⟨fun s => .refl s.store,fun shows _ => .ok shows⟩

theorem throw {failure other : Failure} (same : other = failure.rename m.toRenaming) :
    Mirrors m f (MonadExcept.throw failure) (MonadExcept.throw other) := by
  subst same
  exact ⟨fun s => .refl s.store,fun shows _ => .error shows⟩

theorem bind {x : Eval α} {y : Eval β} {k : α → Eval γ} {l : β → Eval δ} (first : Mirrors m f x y)
    (next : ∀ a, Mirrors m g (k a) (l (f a))) : Mirrors m g (x >>= k) (y >>= l) := by
  constructor
  · intro s
    exact (first.older s).trans (older_bind (fun a => (next a).older) s)
  · intro s t shows admits
    have start := first.shows shows (admits.of_older (older_bind (fun a => (next a).older) s))
    simp only [Eval.after,Bind.bind,EStateM.bind] at start admits ⊢
    generalize x s = outcome,y t = image at start admits ⊢
    cases outcome with
    | ok a middle =>
      cases start with
      | ok shows => exact (next a).shows shows admits
    | error failure middle =>
      cases start with
      | error shows => exact .error shows

theorem map {x : Eval α} {y : Eval β} {k : α → γ} {l : β → δ} (first : Mirrors m f x y)
    (next : ∀ a, l (f a) = g (k a)) : Mirrors m g (k <$> x) (l <$> y) := by
  constructor
  · intro s
    have start := first.older s
    simp only [Eval.after,Functor.map,EStateM.map] at start ⊢
    generalize x s = outcome at start ⊢
    cases outcome <;> exact start
  · intro s t shows admits
    have start := first.shows shows
    simp only [Eval.after,Functor.map,EStateM.map] at start admits ⊢
    generalize x s = outcome,y t = image at start admits ⊢
    cases outcome with
    | ok a middle =>
      cases start admits with
      | ok shows =>
        dsimp only
        rw [next]
        exact .ok shows
    | error failure middle =>
      cases start admits with
      | error shows => exact .error shows

theorem traced {x : Eval α} {y : Eval β} (env : FrameId) (inside : Mirrors m f x y) :
    Mirrors m f (Eval.traced pos env x) (Eval.traced pos (m.frame env) y) := by
  constructor
  · intro s
    have start := inside.older s
    simp only [Eval.after,Eval.traced] at start ⊢
    generalize x s = outcome at start ⊢
    cases outcome <;> exact start
  · intro s t shows admits
    have start := inside.shows shows
    simp only [Eval.after,Eval.traced] at start admits ⊢
    generalize x s = outcome,y t = image at start admits ⊢
    cases outcome with
    | ok a middle =>
      cases start admits with
      | ok shows => exact .ok shows
    | error failure middle =>
      cases start admits with
      | error shows =>
        dsimp only
        rw [Failure.passThrough_rename]
        exact .error shows

theorem readStore {k : Store → α} {l : Store → β} (next : ∀ {s t}, m.Shows s t → l t = f (k s)) :
    Mirrors m f (Eval.readStore k) (Eval.readStore l) := by
  refine ⟨fun s => .refl s.store,fun {s t} shows _ => ?_⟩
  rw [Eval.readStore,Eval.readStore,next shows]
  exact .ok shows

theorem onStore {k : Store → α × Store} {l : Store → β × Store} (older : ∀ s : Store, s.Older (k s).2)
    (next : ∀ {s t}, m.Shows s t → m.Admits (k s).2 → (l t).1 = f (k s).1 ∧ m.Shows (k s).2 (l t).2) :
    Mirrors m f (Eval.onStore k) (Eval.onStore l) := by
  refine ⟨fun s => older s.store,fun {s t} shows admits => ?_⟩
  obtain ⟨same,shows⟩ := next shows admits
  rw [Eval.onStore,Eval.onStore]
  dsimp only
  rw [same]
  exact .ok shows

theorem changeStore {k l : Store → Store} (older : ∀ s : Store, s.Older (k s))
    (next : ∀ {s t}, m.Shows s t → m.Shows (k s) (l t)) :
    Mirrors m id (Eval.changeStore k) (Eval.changeStore l) :=
  ⟨fun s => older s.store,fun shows _ => .ok (next shows)⟩

/-- What is left behind is shown as well, with or without a failure. -/
theorem shows_after {x : Eval α} {y : Eval β} {s t : State} (mirrors : Mirrors m f x y)
    (shows : m.Shows s.store t.store) (admits : m.Admits (x.after s).store) :
    m.Shows (x.after s).store (y.after t).store := by
  have outcome := mirrors.shows shows admits
  simp only [Eval.after]
  generalize x s = left,y t = right at outcome ⊢
  cases outcome with
  | ok shows => exact shows
  | error shows => exact shows

theorem note (call : CallRecord) : Mirrors m id (Eval.note call) (Eval.note call) :=
  ⟨fun s => .refl s.store,fun shows _ => .ok shows⟩

theorem fail (fault : RuntimeFault) : Mirrors m f (Eval.fail fault) (Eval.fail fault) :=
  throw (by simp [Failure.rename,RuntimeError.rename,RuntimeError.ofFault])

theorem failAt (fault : RuntimeFault) (env : FrameId) :
    Mirrors m f (Eval.failAt fault pos env) (Eval.failAt fault pos (m.frame env)) :=
  throw (by simp [Failure.rename,RuntimeError.rename,RuntimeError.located])

theorem ofSyntax (result : Except SyntaxError α) :
    Mirrors m id (Eval.ofSyntax result) (Eval.ofSyntax result) := by
  cases result with
  | ok a => exact pure rfl
  | error e => exact throw rfl

theorem ofFault (result : Except RuntimeFault α) :
    Mirrors m id (Eval.ofFault result) (Eval.ofFault result) := by
  cases result with
  | ok a => exact pure rfl
  | error fault => exact fail fault

theorem define (env : FrameId) (name : String) (v : Value) :
    Mirrors m id (Eval.define env name v) (Eval.define (m.frame env) name (m.value v)) :=
  changeStore (fun _ => ⟨fun _ _ known => Store.parent?_define.trans known,Nat.le_refl _⟩)
    fun shows => shows.define env name v

/-- The parent of the new frame is older, or the store would not be admitted. -/
theorem newChild (parent : FrameId) :
    Mirrors m m.frame (Eval.newChild parent) (Eval.newChild (m.frame parent)) := by
  refine onStore (fun s => ⟨?_,Nat.le_refl _⟩) fun {s t} shows admits => shows.newFrame ?_
  · intro f above known
    have old := Store.isSome_parent?.mp (Option.isSome_of_eq_some known)
    rw [Store.parent?_newFrame,if_neg (Nat.ne_of_lt old)]
    exact known
  · exact admits.parents (f := ⟨s.frames.size⟩) (by rw [Store.parent?_newFrame,if_pos rfl])

theorem newList (values : List Value) : Mirrors m m.value (Eval.newList values)
    (Eval.newList (values.map m.value)) :=
  onStore (fun s => s.older_list values) fun shows _ => shows.list values

theorem quote (datum : Except SyntaxError Datum) :
    Mirrors m m.value (Eval.quote datum) (Eval.quote datum) :=
  bind (ofSyntax datum) fun d => onStore (fun s => s.older_build d) fun shows _ => shows.build d

theorem lookup (name : String) (env : FrameId) :
    Mirrors m m.value (Eval.lookup name pos env)
      (Eval.lookup name pos (m.frame env)) := by
  refine bind (readStore fun shows => shows.lookup env name) fun found => ?_
  cases found with
  | some v => exact pure rfl
  | none => exact failAt _ env

end Eval.Mirrors

section Operands

variable {ev other : Evaluator} (mirrors : Evaluator.Mirrors m ev other)

include mirrors in
theorem Evaluator.Mirrors.body (env : FrameId) (forms : List Node) :
    Eval.Mirrors m m.value (ev.body env forms)
      (other.body (m.frame env) forms) := by
  fun_induction Evaluator.body ev env forms with
  | case1 => exact .pure rfl
  | case2 n => exact mirrors.eval n env
  | case3 n ns more ih =>
    rw [Evaluator.body]
    · exact .bind (mirrors.eval n env) fun _ => ih
    · exact more

namespace Operand

theorem delay_rename (m : Mirror) (env : FrameId) (op : Operand) :
    (m.operand op).delay (m.frame env) = m.value (op.delay env) := by
  cases op <;> rfl

theorem node?_rename (r : Renaming) (op : Operand) : (op.rename r).node? = op.node? := by
  cases op <;> rfl

theorem children?_rename (r : Renaming) (op : Operand) :
    (op.rename r).children? = op.children?.map (List.map (rename r)) := by
  cases op with
  | value v => rfl
  | node n =>
    simp only [rename,children?,Option.map_map]
    cases n.items? <;> simp [rename]
  | deferred d =>
    simp only [rename,children?,Delayed.rename,Option.map_map]
    cases d.node.items? <;> simp [rename,Delayed.rename]

theorem ofElement_rename (r : Renaming) (v : Value) : ofElement (v.rename r) = (ofElement v).rename r := by
  cases v <;> rfl

section Evaluated

include mirrors

theorem eval_mirrors (env : FrameId) (op : Operand) :
    Eval.Mirrors m m.value (op.eval ev env)
      ((m.operand op).eval other (m.frame env)) := by
  cases op with
  | node n => exact mirrors.eval n env
  | deferred d => exact .pure rfl
  | value v => exact .pure rfl

theorem evalForced_mirrors (env : FrameId) (op : Operand) :
    Eval.Mirrors m m.value (op.evalForced ev env)
      ((m.operand op).evalForced other (m.frame env)) :=
  .bind (eval_mirrors mirrors env op) mirrors.force

theorem evalAll_mirrors (env : FrameId) (ops : List Operand) :
    Eval.Mirrors m (List.map m.value) (evalAll ev env ops)
      (evalAll other (m.frame env) (ops.map m.operand)) := by
  induction ops with
  | nil => exact .pure rfl
  | cons op ops ih =>
    exact .bind (evalForced_mirrors mirrors env op) fun _ => .bind ih fun _ => .pure rfl

end Evaluated

theorem splice_mirrors (name : String) (pos : Position) (env : FrameId) :
    Eval.Mirrors m (List.map m.operand) (splice name pos env)
      (splice name pos (m.frame env)) := by
  refine .bind (.lookup name env) fun list => .bind
    (f := fun found => (found.1.map m.value,m.value found.2))
    (.readStore fun {s t} shows => ?_) ?_
  · rw [shows.pairs,Array.size_map]
    exact shows.walk _ list
  · rintro ⟨values,last⟩
    cases last with
    | nil => exact .pure (by simp [ofElement_rename])
    | pair => exact .throw rfl
    | unspecified | boolean | char | string | symbol | number | vector | closure | transformer
    | delayed | primitive | form => exact .traced env (.fail _)

theorem collect_mirrors (env : FrameId) (nodes : List Node) :
    Eval.Mirrors m (List.map m.operand) (collect env nodes)
      (collect (m.frame env) nodes) := by
  fun_induction collect env nodes with
  | case1 name pos next rest ellipsis ih =>
    rw [collect,if_pos ellipsis]
    exact .bind (splice_mirrors name pos env) fun _ => .bind ih fun _ => .pure (by simp)
  | case2 name pos next rest plain ih =>
    rw [collect,if_neg plain]
    exact .bind ih fun _ => .pure rfl
  | case3 n rest single ih =>
    rw [collect]
    · exact .bind ih fun _ => .pure rfl
    · exact single
  | case4 => exact .pure rfl

end Operand
end Operands

section Primitives

variable {α β : Type} {f : α → β}

namespace Arguments

theorem one_mirrors {k : Value → Eval α} {l : Value → Eval β} (args : List Value)
    (next : ∀ v, Eval.Mirrors m f (k v) (l (m.value v))) :
    Eval.Mirrors m f (one k args) (one l (args.map m.value)) := by
  match args with
  | [v] => exact next v
  | [] => exact .fail _
  | _ :: _ :: _ => simp only [one,List.map_cons,List.length_cons,List.length_map]; exact .fail _

theorem two_mirrors {k : Value → Value → Eval α} {l : Value → Value → Eval β} (args : List Value)
    (next : ∀ v w, Eval.Mirrors m f (k v w) (l (m.value v) (m.value w))) :
    Eval.Mirrors m f (two k args) (two l (args.map m.value)) := by
  match args with
  | [v,w] => exact next v w
  | [] | [_] => exact .fail _
  | _ :: _ :: _ :: _ =>
    simp only [two,List.map_cons,List.length_cons,List.length_map]; exact .fail _

theorem three_mirrors {k : Value → Value → Value → Eval α} {l : Value → Value → Value → Eval β}
    (args : List Value) (next : ∀ u v w, Eval.Mirrors m f (k u v w)
      (l (m.value u) (m.value v) (m.value w))) :
    Eval.Mirrors m f (three k args) (three l (args.map m.value)) := by
  match args with
  | [u,v,w] => exact next u v w
  | [] | [_] | [_,_] => exact .fail _
  | _ :: _ :: _ :: _ :: _ =>
    simp only [three,List.map_cons,List.length_cons,List.length_map]; exact .fail _

variable (r : Renaming)

theorem checkKinds_rename (procedure : String) (guards : List (Kind → Bool)) (args : List Value) :
    checkKinds procedure guards (args.map (Value.rename r)) = checkKinds procedure guards args := by
  induction args generalizing guards with
  | nil => cases guards <;> rfl
  | cons v args ih =>
    cases guards with
    | nil => rfl
    | cons guard guards => cases guards <;> simp only [checkKinds,List.map_cons,Value.rename_kind,ih]

theorem numbers_rename (procedure : String) (guard : Kind → Bool) (args : List Value) :
    numbers procedure guard (args.map (Value.rename r)) = numbers procedure guard args := by
  have same : Value.number? ∘ Value.rename r = Value.number? := funext (Value.rename_number? r)
  rw [numbers,numbers,checkKinds_rename,List.filterMap_map,same]

end Arguments

namespace Primitive

open Arguments

theorem asPair_mirrors (procedure : String) (v : Value) :
    Eval.Mirrors m id (asPair procedure v) (asPair procedure (m.value v)) := by
  cases v with
  | pair p => exact .pure rfl
  | unspecified | nil | boolean | char | string | symbol | number | vector | closure | transformer
  | delayed | primitive | form => exact .fail _

theorem asVector_mirrors (procedure : String) (v : Value) :
    Eval.Mirrors m id (asVector procedure v) (asVector procedure (m.value v)) := by
  cases v with
  | vector i => exact .pure rfl
  | unspecified | nil | boolean | char | string | symbol | number | pair | closure | transformer
  | delayed | primitive | form => exact .fail _

theorem asIndex_mirrors (procedure : String) (length : Nat) (v : Value) :
    Eval.Mirrors m id (asIndex procedure length v) (asIndex procedure length (m.value v)) := by
  cases v with
  | number n =>
    cases n with
    | integer i =>
      change Eval.Mirrors m id (asIndex procedure length (.number (.integer i)))
        (asIndex procedure length (.number (.integer i)))
      rw [asIndex]
      split
      · exact .pure rfl
      · exact .fail _
    | fraction | float | complex | nan | infinite => exact .fail _
  | unspecified | nil | boolean | char | string | symbol | pair | vector | closure | transformer
  | delayed | primitive | form => exact .fail _

theorem readItem_mirrors (v index : Value) :
    Eval.Mirrors m m.value (readItem v index)
      (readItem (m.value v) (m.value index)) := by
  refine .bind (asVector_mirrors _ v) fun cell =>
    .bind (.readStore fun shows => shows.items cell) fun items => ?_
  rw [Array.size_map]
  refine .bind (asIndex_mirrors _ _ index) fun i => .pure ?_
  simp only [Array.getElem?_map,id]
  cases items[i]? <;> rfl

theorem writeItem_mirrors (v index value : Value) :
    Eval.Mirrors m m.value (writeItem v index value)
      (writeItem (m.value v) (m.value index) (m.value value)) := by
  refine .bind (asVector_mirrors _ v) fun cell =>
    .bind (f := id) (.readStore fun shows => by rw [id,shows.items,Array.size_map]; rfl) fun length =>
      .bind (asIndex_mirrors _ _ index) fun i =>
        .bind (.changeStore (fun _ => .of_frames rfl (Nat.le_refl _))
          fun shows => shows.setItem cell i value) fun _ => .pure rfl

theorem arithmetic_mirrors (result : Except RuntimeFault Number) :
    Eval.Mirrors m m.value (arithmetic result) (arithmetic result) :=
  .map (.ofFault result) fun _ => rfl

theorem run_mirrors {resolve other : Value → Eval Value}
    (mirrors : ∀ v, Eval.Mirrors m m.value (resolve v)
      (other (m.value v))) (p : Primitive) (args : List Value) :
    Eval.Mirrors m m.value (p.run resolve args)
      (p.run other (args.map m.value)) := by
  cases p with
  | cons =>
    exact two_mirrors args fun a b =>
      .onStore (fun _ => .of_frames rfl (Nat.le_refl _)) fun shows _ => shows.cons a b
  | car =>
    exact one_mirrors args fun v => .bind (asPair_mirrors _ v) fun cell =>
      .readStore fun shows => shows.head cell
  | cdr =>
    exact one_mirrors args fun v => .bind (asPair_mirrors _ v) fun cell =>
      .readStore fun shows => shows.tail cell
  | setCar =>
    exact two_mirrors args fun v x => .bind (asPair_mirrors _ v) fun cell =>
      .bind (.changeStore (fun _ => .of_frames rfl (Nat.le_refl _))
        fun shows => shows.setHead cell x) fun _ => .pure rfl
  | setCdr =>
    exact two_mirrors args fun v x => .bind (asPair_mirrors _ v) fun cell =>
      .bind (.changeStore (fun _ => .of_frames rfl (Nat.le_refl _))
        fun shows => shows.setTail cell x) fun _ => .pure rfl
  | list => exact .newList args
  | add | mul =>
    simp only [run,accumulate,numbers_rename]
    exact arithmetic_mirrors _
  | sub | div =>
    simp only [run,reduce,numbers_rename,List.length_map]
    exact arithmetic_mirrors _
  | eq | lt | gt | le | ge =>
    simp only [run,comparison,compareChain,numbers_rename,List.length_map]
    exact .map (.ofFault _) fun _ => rfl
  | isNull | isPair | isNumber | isSymbol | isProcedure | isVector =>
    exact one_mirrors args fun v => .pure (by rw [Value.rename_kind]; rfl)
  | isEq => exact two_mirrors args fun a b => .pure (by rw [Value.rename_eqv]; rfl)
  | not => exact one_mirrors args fun v => .pure (by rw [Value.rename_isTrue]; rfl)
  | force => exact one_mirrors args mirrors
  | vector =>
    simp only [run,← List.map_toArray]
    refine .onStore (fun _ => .of_frames rfl (Nat.le_refl _)) fun shows _ => ?_
    exact shows.newVector args.toArray
  | vectorLength =>
    exact one_mirrors args fun v => .bind (asVector_mirrors _ v) fun cell =>
      .readStore fun shows => by rw [id,shows.items,Array.size_map]; rfl
  | vectorRef => exact two_mirrors args readItem_mirrors
  | vectorSet => exact three_mirrors args writeItem_mirrors
  | load => exact .fail _

end Primitive
end Primitives

end MiniScheme
