import Mathlib.Logic.Function.Basic
import MiniScheme.Eval.Operand
import MiniScheme.Proofs.Store.Forest

/-! Renamed stores. Frames, procedures and transformers are known by numbers that are given out in
the order of creation, so two runs that create them in different orders come to stores that differ in
these numbers. A mirror is a renaming that is followed through a run: what is created next on one side
is the image of what is created next on the other, and frames that are no images are left alone. -/
namespace MiniScheme

/-- New numbers for frames, and for procedures and transformers. -/
structure Renaming where
  frame : FrameId → FrameId
  number : Nat → Nat

def Delayed.rename (r : Renaming) (d : Delayed) : Delayed := { d with env := r.frame d.env }

def Value.rename (r : Renaming) : Value → Value
  | closure c => closure { c with id := r.number c.id, env := r.frame c.env }
  | transformer t => transformer { t with id := r.number t.id, env := r.frame t.env }
  | delayed d => delayed (d.rename r)
  | other => other

def Operand.rename (r : Renaming) : Operand → Operand
  | node n => node n
  | deferred d => deferred (d.rename r)
  | value v => value (v.rename r)

def Frame.rename (r : Renaming) (f : Frame) : Frame :=
  ⟨f.parent.map r.frame,f.bindings.map fun binding => (binding.1,binding.2.rename r)⟩

def Pair.rename (r : Renaming) (p : Pair) : Pair := ⟨p.head.rename r,p.tail.rename r⟩

/-- The second store is the first with new numbers: its frames have the renamed parents and bind the
same names to the renamed values. It may have further frames. -/
structure Store.Renamed (r : Renaming) (s t : Store) : Prop where
  parents (f : FrameId) : t.parent? (r.frame f) = (s.parent? f).map (Option.map r.frame)
  bindings (f : FrameId) (name : String) :
    t.binding? (r.frame f) name = (s.binding? f name).map (Value.rename r)
  pairs : t.pairs = s.pairs.map (Pair.rename r)
  vectors : t.vectors = s.vectors.map (Array.map (Value.rename r))

/-- A renaming to be followed through a run that gives out no numbers from `limit` on, and the frames
that are no images. -/
structure Mirror extends Renaming where
  limit : Nat
  aside : FrameId → Option Frame
  frame_injective : Function.Injective frame
  number_injective : Function.Injective number

abbrev Mirror.value (m : Mirror) : Value → Value := Value.rename m.toRenaming

abbrev Mirror.operand (m : Mirror) : Operand → Operand := Operand.rename m.toRenaming

/-- `m.Shows s t`: the store `t` is `s` in the mirror. Parents are older on both sides. -/
structure Mirror.Shows (m : Mirror) (s t : Store) : Prop extends Store.Renamed m.toRenaming s t where
  nextFrame (k : Nat) : m.frame ⟨s.frames.size + k⟩ = ⟨t.frames.size + k⟩
  nextNumber {k : Nat} : s.fresh + k < m.limit → m.number (s.fresh + k) = t.fresh + k
  older {f parent : FrameId} : s.parent? f = some (some parent) →
    parent.index < f.index ∧ (m.frame parent).index < (m.frame f).index
  others (g : FrameId) : (∀ f, m.frame f ≠ g) → t.frame? g = m.aside g

namespace Value

variable (r : Renaming)

@[simp] theorem rename_pair (p : PairId) : (pair p).rename r = pair p := rfl

@[simp] theorem rename_vector (i : VectorId) : (vector i).rename r = vector i := rfl

@[simp] theorem rename_kind (v : Value) : (v.rename r).kind = v.kind := by cases v <;> rfl

@[simp] theorem rename_isTrue (v : Value) : (v.rename r).isTrue = v.isTrue := by cases v <;> rfl

@[simp] theorem rename_number? (v : Value) : (v.rename r).number? = v.number? := by cases v <;> rfl

theorem rename_eqv (m : Mirror) (a b : Value) :
    (m.value a).eqv (m.value b) = a.eqv b := by
  cases a with
  | closure c =>
    cases b with
    | closure d =>
      have ids : (m.number c.id == m.number d.id) = (c.id == d.id) := by
        simp [m.number_injective.eq_iff]
      have frames : (m.frame c.env == m.frame d.env) = (c.env == d.env) := by
        simp [m.frame_injective.eq_iff]
      simp only [rename,eqv,ids,frames]
    | _ => rfl
  | transformer t =>
    cases b with
    | transformer u =>
      have ids : (m.number t.id == m.number u.id) = (t.id == u.id) := by
        simp [m.number_injective.eq_iff]
      simp only [rename,eqv,ids]
    | _ => rfl
  | _ => cases b <;> rfl

end Value

namespace Frame

variable (r : Renaming) (name : String)

theorem find?_rename (f : Frame) : (f.rename r).find? name = (f.find? name).map (Value.rename r) := by
  rw [find?,find?,rename]
  induction f.bindings with
  | nil => rfl
  | cons binding rest ih =>
    rw [List.map_cons,List.lookup_cons,List.lookup_cons,ih]
    split <;> rfl

theorem insert_rename (v : Value) (bindings : List (String × Value)) :
    insert name (v.rename r) (bindings.map fun binding => (binding.1,binding.2.rename r)) =
      (insert name v bindings).map fun binding => (binding.1,binding.2.rename r) := by
  induction bindings with
  | nil => rfl
  | cons binding rest ih =>
    obtain ⟨key,old⟩ := binding
    simp only [insert,List.map_cons]
    split
    · rfl
    · rw [ih]
      rfl

theorem define_rename (f : Frame) (v : Value) :
    (f.rename r).define name (v.rename r) = (f.define name v).rename r := by
  simp only [define,rename,insert_rename]

end Frame

/-- A change that a renaming passes through may be made after it. -/
theorem modify_map {α β : Type} {f : α → β} {xs : Array α} {change : α → α} {other : β → β} (i : Nat)
    (same : ∀ x, other (f x) = f (change x)) : (xs.map f).modify i other = (xs.modify i change).map f := by
  refine Array.ext_getElem? fun j => ?_
  simp only [Array.getElem?_modify,Array.getElem?_map]
  split
  · cases xs[j]? <;> simp [same]
  · rfl

namespace Store

variable {s : Store} {f g : FrameId}

theorem frame?_newFrame (parent : Option FrameId) :
    (s.newFrame parent).2.frame? g = if g = ⟨s.frames.size⟩ then some ⟨parent,[]⟩ else s.frame? g := by
  obtain ⟨index⟩ := g
  simp only [frame?,newFrame,Array.getElem?_push,FrameId.mk.injEq]

theorem binding?_newFrame (parent : Option FrameId) (name : String) :
    (s.newFrame parent).2.binding? g name =
      if g = ⟨s.frames.size⟩ then none else s.binding? g name := by
  rw [binding?,frame?_newFrame]
  split <;> rfl

theorem isSome_frame? : (s.frame? f).isSome = (s.parent? f).isSome := Option.isSome_map.symm

/-- A chain is made of parents. -/
theorem chainWithin_succ (limit : Nat) (f : FrameId) : s.chainWithin (limit + 1) f =
    match s.parent? f with
    | none => []
    | some none => [f]
    | some (some parent) => f :: s.chainWithin limit parent := by
  rw [chainWithin,parent?]
  cases s.frame? f with
  | none => rfl
  | some frame => cases inside : frame.parent <;> simp [inside]

end Store

namespace Mirror.Shows

variable {m : Mirror} {s t : Store} {f g : FrameId}

/-! Names. -/

/-- The limits are not the same on the two sides, but neither is ever reached. -/
theorem chainWithin (shows : m.Shows s t) {limit other : Nat} (enough : f.index < limit)
    (fits : (m.frame f).index < other) :
    t.chainWithin other (m.frame f) = (s.chainWithin limit f).map m.frame := by
  induction limit generalizing other f with
  | zero => contradiction
  | succ limit ih =>
    obtain ⟨other,rfl⟩ : ∃ less, other = less + 1 := ⟨other - 1,by omega⟩
    rw [Store.chainWithin_succ,Store.chainWithin_succ,shows.parents]
    cases known : s.parent? f with
    | none => rfl
    | some above =>
      cases above with
      | none => rfl
      | some parent =>
        obtain ⟨older,image⟩ := shows.older known
        have rest := ih (show parent.index < limit by omega) (show _ < other by omega)
        simp [rest]

theorem lookup (shows : m.Shows s t) (f : FrameId) (name : String) :
    t.lookup (m.frame f) name = (s.lookup f name).map m.value := by
  rw [Store.lookup,Store.lookup,Store.chain,Store.chain,
    shows.chainWithin (Nat.lt_succ_self f.index) (Nat.lt_succ_self _)]
  induction s.chainWithin (f.index + 1) f with
  | nil => rfl
  | cons g chain ih =>
    rw [List.map_cons,List.findSome?_cons,List.findSome?_cons,shows.bindings,ih]
    cases s.binding? g name <;> rfl

theorem isSome_frame? (shows : m.Shows s t) (f : FrameId) :
    (t.frame? (m.frame f)).isSome = (s.frame? f).isSome := by
  rw [Store.isSome_frame?,shows.parents,Option.isSome_map,Store.isSome_frame?]

theorem define (shows : m.Shows s t) (f : FrameId) (name : String) (v : Value) :
    m.Shows (s.define f name v) (t.define (m.frame f) name (m.value v)) where
  parents g := by rw [Store.parent?_define,Store.parent?_define,shows.parents]
  bindings g key := by
    simp only [Store.binding?_define,shows.isSome_frame?,shows.bindings,m.frame_injective.eq_iff]
    split <;> rfl
  pairs := shows.pairs
  vectors := shows.vectors
  nextFrame k := by simpa [Store.define] using shows.nextFrame k
  nextNumber := shows.nextNumber
  older known := shows.older (Store.parent?_define.symm.trans known)
  others g apart := by
    rw [Store.frame?_define,if_neg fun same => apart f same.symm]
    exact shows.others g apart

theorem present (shows : m.Shows s t) (present : f.index < s.frames.size) :
    (m.frame f).index < t.frames.size := by
  have found := Store.isSome_parent?.mpr present
  rw [← Store.isSome_parent?,shows.parents,Option.isSome_map]
  exact found

theorem newFrame (shows : m.Shows s t) (present : f.index < s.frames.size) :
    (t.newFrame (some (m.frame f))).1 = m.frame (s.newFrame (some f)).1 ∧
      m.Shows (s.newFrame (some f)).2 (t.newFrame (some (m.frame f))).2 := by
  have new : m.frame ⟨s.frames.size⟩ = ⟨t.frames.size⟩ := shows.nextFrame 0
  have image (g : FrameId) : (m.frame g).index = t.frames.size ↔ g.index = s.frames.size := by
    rw [show t.frames.size = (m.frame ⟨s.frames.size⟩).index by rw [new]]
    constructor
    · intro same
      exact congrArg FrameId.index (m.frame_injective (congrArg FrameId.mk same))
    · intro same
      exact congrArg (fun f => (m.frame f).index) (congrArg FrameId.mk same)
  refine ⟨new.symm,⟨⟨?_,?_,shows.pairs,shows.vectors⟩,?_,shows.nextNumber,?_,?_⟩⟩
  · intro g
    simp only [Store.parent?_newFrame,image,shows.parents]
    split <;> rfl
  · intro g name
    simp only [Store.binding?_newFrame,← new,m.frame_injective.eq_iff,shows.bindings]
    split <;> rfl
  · intro k
    simpa [Store.newFrame,Nat.add_assoc,Nat.add_comm 1 k] using shows.nextFrame (k + 1)
  · intro g parent known
    rw [Store.parent?_newFrame] at known
    split at known
    next youngest =>
      cases known
      rw [(image g).mpr youngest,youngest]
      exact ⟨present,shows.present present⟩
    next => exact shows.older known
  · intro g apart
    rw [Store.frame?_newFrame,if_neg fun same => apart _ (new.trans same.symm)]
    exact shows.others g apart

/-! Cells. -/

theorem head (shows : m.Shows s t) (p : PairId) : t.head p = m.value (s.head p) := by
  simp only [Store.head,Store.pair?,shows.pairs,Array.getElem?_map]
  cases s.pairs[p.index]? <;> rfl

theorem tail (shows : m.Shows s t) (p : PairId) : t.tail p = m.value (s.tail p) := by
  simp only [Store.tail,Store.pair?,shows.pairs,Array.getElem?_map]
  cases s.pairs[p.index]? <;> rfl

theorem items (shows : m.Shows s t) (i : VectorId) :
    t.items i = (s.items i).map m.value := by
  simp only [Store.items,shows.vectors,Array.getElem?_map]
  cases s.vectors[i.index]? <;> simp

theorem setHead (shows : m.Shows s t) (p : PairId) (v : Value) :
    m.Shows (s.setHead p v) (t.setHead p (m.value v)) := by
  refine { shows with pairs := ?_ }
  simp only [Store.setHead,shows.pairs]
  exact modify_map _ fun _ => rfl

theorem setTail (shows : m.Shows s t) (p : PairId) (v : Value) :
    m.Shows (s.setTail p v) (t.setTail p (m.value v)) := by
  refine { shows with pairs := ?_ }
  simp only [Store.setTail,shows.pairs]
  exact modify_map _ fun _ => rfl

theorem setItem (shows : m.Shows s t) (i : VectorId) (j : Nat) (v : Value) :
    m.Shows (s.setItem i j v) (t.setItem i j (m.value v)) := by
  refine { shows with vectors := ?_ }
  simp only [Store.setItem,shows.vectors]
  exact modify_map _ fun items => by simp [Array.map_setIfInBounds]

/-- A renamed result, and the store shown. -/
def Gives (m : Mirror) (x y : Value × Store) : Prop :=
  y.1 = m.value x.1 ∧ m.Shows x.2 y.2

theorem cons (shows : m.Shows s t) (a b : Value) :
    Gives m (s.cons a b) (t.cons (m.value a) (m.value b)) := by
  refine ⟨?_,{ shows with pairs := ?_ }⟩
  · simp [Store.cons,shows.pairs]
  · simp [Store.cons,shows.pairs,Pair.rename]

theorem newVector (shows : m.Shows s t) (items : Array Value) :
    Gives m (s.newVector items) (t.newVector (items.map m.value)) := by
  refine ⟨?_,{ shows with vectors := ?_ }⟩
  · simp [Store.newVector,shows.vectors]
  · simp [Store.newVector,shows.vectors]

theorem nextFresh (shows : m.Shows s t) (below : s.fresh < m.limit) :
    t.nextFresh.1 = m.number s.nextFresh.1 ∧ m.Shows s.nextFresh.2 t.nextFresh.2 := by
  refine ⟨(shows.nextNumber (k := 0) below).symm,{ shows with nextNumber := ?_ }⟩
  intro k lt
  simp only [Store.nextFresh,Nat.add_assoc,Nat.add_comm 1 k] at lt ⊢
  exact shows.nextNumber lt

theorem list (shows : m.Shows s t) (values : List Value) :
    Gives m (s.list values) (t.list (values.map m.value)) := by
  induction values with
  | nil => exact ⟨rfl,shows⟩
  | cons v values ih =>
    obtain ⟨same,rest⟩ := ih
    have made := rest.cons v (s.list values).1
    rw [← same] at made
    exact made

mutual

theorem build {s t : Store} (shows : m.Shows s t) : (d : Datum) → Gives m (s.build d) (t.build d)
  | .unspecified | .nil | .boolean _ | .char _ | .string _ _ | .symbol _ | .number _ => ⟨rfl,shows⟩
  | .pair head tail => by
    obtain ⟨first,shows⟩ := build shows head
    obtain ⟨rest,shows⟩ := build shows tail
    have made := shows.cons (s.build head).1 ((s.build head).2.build tail).1
    rw [← first,← rest] at made
    exact made
  | .vector items => by
    obtain ⟨all,shows⟩ := buildAll shows items
    have made := shows.newVector (s.buildAll items).1.toArray
    rw [List.map_toArray,← all] at made
    exact made

theorem buildAll {s t : Store} (shows : m.Shows s t) : (ds : List Datum) →
    (t.buildAll ds).1 = (s.buildAll ds).1.map m.value ∧
      m.Shows (s.buildAll ds).2 (t.buildAll ds).2
  | [] => ⟨rfl,shows⟩
  | d :: ds => by
    obtain ⟨first,shows⟩ := build shows d
    obtain ⟨rest,shows⟩ := buildAll shows ds
    refine ⟨?_,shows⟩
    simp only [Store.buildAll,List.map_cons,first,rest]

end

theorem walk (shows : m.Shows s t) (limit : Nat) (v : Value) :
    t.walk limit (m.value v) = ((s.walk limit v).1.map m.value,
      m.value (s.walk limit v).2) := by
  induction limit generalizing v with
  | zero => cases v <;> rfl
  | succ limit ih =>
    cases v with
    | pair p =>
      simp only [Value.rename_pair,Store.walk,shows.head,shows.tail,ih,List.map_cons]
    | unspecified | nil | boolean | char | string | symbol | number | vector | closure | transformer
    | delayed | primitive | form => rfl

theorem write (shows : m.Shows s t) (fuel : Nat) (path : List Cell) (place : Place) (v : Value) :
    t.write fuel path place (m.value v) = s.write fuel path place v := by
  induction fuel generalizing path place v with
  | zero => rfl
  | succ fuel ih =>
    cases v with
    | pair p => simp only [Value.rename_pair,Store.write,shows.head,shows.tail,ih]
    | vector i => simp [Store.write,shows.items,Function.comp_def,ih]
    | unspecified | nil | boolean | char | string | symbol | number | closure | transformer
    | delayed | primitive | form => rfl

/-- Numbers do not show in the text of a value. -/
theorem text (shows : m.Shows s t) (v : Value) : t.text (m.value v) = s.text v := by
  simp only [Store.text,Store.cellCount,shows.pairs,shows.vectors,Array.size_map]
  exact shows.write _ [] .alone v

end Mirror.Shows
end MiniScheme
