import MiniScheme.Proofs.Likeness.Basic

/-! Like stores. They hold like values under the same names and numbers, so every operation finds
like values and leaves like stores, and like values have the same text. -/
namespace MiniScheme

/-- Arrays with like items at the same places. -/
def Rows {α : Type} (A : α → α → Prop) (xs ys : Array α) : Prop :=
  List.Forall₂ A xs.toList ys.toList

namespace Rows

variable {α : Type} {A : α → α → Prop} {xs ys : Array α}

theorem size (rows : Rows A xs ys) : xs.size = ys.size := by
  rw [← Array.length_toList,← Array.length_toList]
  exact rows.length_eq

theorem get? (rows : Rows A xs ys) (i : Nat) : Option.Rel A xs[i]? ys[i]? := by
  rw [← Array.getElem?_toList,← Array.getElem?_toList]
  unfold Rows at rows
  generalize xs.toList = as,ys.toList = bs at rows ⊢
  induction rows generalizing i with
  | nil => exact .none
  | cons head _ ih =>
    cases i with
    | zero => exact .some head
    | succ i => simpa using ih i

theorem back? (rows : Rows A xs ys) : Option.Rel A xs.back? ys.back? := by
  rw [Array.back?_eq_getElem?,Array.back?_eq_getElem?,rows.size]
  exact rows.get? _

theorem push (rows : Rows A xs ys) {x y : α} (like : A x y) : Rows A (xs.push x) (ys.push y) := by
  rw [Rows,Array.toList_push,Array.toList_push]
  exact List.rel_append rows (.cons like .nil)

theorem map_eq {β : Type} {f g : α → β} (rows : Rows A xs ys) (next : ∀ {x y}, A x y → f x = g y) :
    xs.toList.map f = ys.toList.map g := by
  have images : List.Forall₂ Eq (xs.toList.map f) (ys.toList.map g) :=
    List.rel_map (fun _ _ like => next like) rows
  rwa [List.forall₂_eq_eq_eq] at images

theorem modify (rows : Rows A xs ys) (i : Nat) {f g : α → α} (next : ∀ {x y}, A x y → A (f x) (g y)) :
    Rows A (xs.modify i f) (ys.modify i g) := by
  rw [Rows,Array.toList_modify,Array.toList_modify]
  unfold Rows at rows
  generalize xs.toList = as,ys.toList = bs at rows ⊢
  induction rows generalizing i with
  | nil => simp
  | cons head tail ih =>
    cases i with
    | zero => exact .cons (next head) tail
    | succ i => exact .cons head (ih i)

theorem set (rows : Rows A xs ys) (i : Nat) {x y : α} (like : A x y) :
    Rows A (xs.setIfInBounds i x) (ys.setIfInBounds i y) := by
  rw [Rows,Array.toList_setIfInBounds,Array.toList_setIfInBounds]
  unfold Rows at rows
  generalize xs.toList = as,ys.toList = bs at rows ⊢
  induction rows generalizing i with
  | nil => exact .nil
  | cons head tail ih =>
    cases i with
    | zero => exact .cons like tail
    | succ i => exact .cons head (ih i)

end Rows

structure Frame.Like (L : Likeness) (a b : Frame) : Prop where
  parent : a.parent = b.parent
  bindings : List.Forall₂ (fun x y => x.1 = y.1 ∧ Value.Like L x.2 y.2) a.bindings b.bindings

structure Pair.Like (L : Likeness) (a b : Pair) : Prop where
  head : Value.Like L a.head b.head
  tail : Value.Like L a.tail b.tail

/-- Stores that differ only in the trees that their values carry. -/
structure Store.Like (L : Likeness) (s t : Store) : Prop where
  frames : Rows (Frame.Like L) s.frames t.frames
  pairs : Rows (Pair.Like L) s.pairs t.pairs
  vectors : Rows (Rows (Value.Like L)) s.vectors t.vectors
  fresh : s.fresh = t.fresh

variable {L : Likeness}

namespace Value

theorem Like.kind {v w : Value} (like : Like L v w) : v.kind = w.kind := by cases like <;> rfl

theorem Like.isTrue {v w : Value} (like : Like L v w) : v.isTrue = w.isTrue := by cases like <;> rfl

theorem Like.eqv {a b c d : Value} (left : Like L a b) (right : Like L c d) :
    a.eqv c = b.eqv d := by
  cases left <;> cases right <;> rfl

/-- What a missing entry of the store is read as. -/
theorem getD_like {α : Type} {A : α → α → Prop} {f : α → Value} {x y : Option α}
    (rel : Option.Rel A x y) (next : ∀ {a b}, A a b → Like L (f a) (f b)) :
    Like L ((x.map f).getD .unspecified) ((y.map f).getD .unspecified) := by
  cases rel with
  | some like => exact next like
  | none => exact .unspecified

end Value

namespace Frame

theorem insert_like (name : String) {v w : Value} (like : Value.Like L v w)
    {xs ys : List (String × Value)}
    (bindings : List.Forall₂ (fun x y => x.1 = y.1 ∧ Value.Like L x.2 y.2) xs ys) :
    List.Forall₂ (fun x y => x.1 = y.1 ∧ Value.Like L x.2 y.2) (insert name v xs)
      (insert name w ys) := by
  induction bindings with
  | nil => exact .cons ⟨rfl,like⟩ .nil
  | @cons x y xs ys head tail ih =>
    obtain ⟨key,old⟩ := x
    obtain ⟨other,new⟩ := y
    obtain ⟨rfl,rest⟩ : key = other ∧ _ := head
    rw [insert,insert]
    split
    · exact .cons ⟨rfl,like⟩ tail
    · exact .cons ⟨rfl,rest⟩ ih

theorem Like.define {a b : Frame} (frame : Like L a b) (name : String) {v w : Value}
    (like : Value.Like L v w) : Like L (a.define name v) (b.define name w) :=
  ⟨frame.parent,insert_like name like frame.bindings⟩

theorem Like.find? {a b : Frame} (frame : Like L a b) (name : String) :
    Option.Rel (Value.Like L) (a.find? name) (b.find? name) := by
  obtain ⟨-,bindings⟩ := frame
  rw [Frame.find?,Frame.find?]
  generalize a.bindings = as,b.bindings = bs at bindings ⊢
  induction bindings with
  | nil => exact .none
  | @cons x y xs ys head tail ih =>
    obtain ⟨key,old⟩ := x
    obtain ⟨other,new⟩ := y
    obtain ⟨rfl,rest⟩ : key = other ∧ _ := head
    rw [List.lookup_cons,List.lookup_cons]
    split
    · exact .some rest
    · exact ih

end Frame

namespace Store.Like

variable {s t : Store}

theorem frame? (like : Like L s t) (f : FrameId) :
    Option.Rel (Frame.Like L) (s.frame? f) (t.frame? f) := like.frames.get? f.index

theorem binding? (like : Like L s t) (f : FrameId) (name : String) :
    Option.Rel (Value.Like L) (s.binding? f name) (t.binding? f name) :=
  rel_bind (like.frame? f) fun frame => frame.find? name

theorem chainWithin (like : Like L s t) (limit : Nat) (f : FrameId) :
    s.chainWithin limit f = t.chainWithin limit f := by
  induction limit generalizing f with
  | zero => rfl
  | succ limit ih =>
    have found := like.frame? f
    rw [Store.chainWithin,Store.chainWithin]
    generalize s.frame? f = x,t.frame? f = y at found ⊢
    cases found with
    | none => rfl
    | some frame => simp only [frame.parent,ih]

theorem lookup (like : Like L s t) (f : FrameId) (name : String) :
    Option.Rel (Value.Like L) (s.lookup f name) (t.lookup f name) := by
  rw [Store.lookup,Store.lookup,chain,chain,like.chainWithin]
  induction t.chainWithin (f.index + 1) f with
  | nil => exact .none
  | cons g chain ih =>
    have found := like.binding? g name
    rw [List.findSome?_cons,List.findSome?_cons]
    generalize s.binding? g name = x,t.binding? g name = y at found ⊢
    cases found with
    | some found => exact .some found
    | none => exact ih

theorem define (like : Like L s t) (f : FrameId) (name : String) {v w : Value}
    (value : Value.Like L v w) : Like L (s.define f name v) (t.define f name w) :=
  { like with frames := like.frames.modify f.index fun frame => frame.define name value }

theorem newFrame (like : Like L s t) (parent : Option FrameId) :
    (s.newFrame parent).1 = (t.newFrame parent).1 ∧
      Like L (s.newFrame parent).2 (t.newFrame parent).2 :=
  ⟨congrArg FrameId.mk like.frames.size,{ like with frames := like.frames.push ⟨rfl,.nil⟩ }⟩

theorem head (like : Like L s t) (p : PairId) : Value.Like L (s.head p) (t.head p) :=
  Value.getD_like (like.pairs.get? p.index) Pair.Like.head

theorem tail (like : Like L s t) (p : PairId) : Value.Like L (s.tail p) (t.tail p) :=
  Value.getD_like (like.pairs.get? p.index) Pair.Like.tail

theorem setHead (like : Like L s t) (p : PairId) {v w : Value} (value : Value.Like L v w) :
    Like L (s.setHead p v) (t.setHead p w) :=
  { like with pairs := like.pairs.modify p.index fun pair => ⟨value,pair.tail⟩ }

theorem setTail (like : Like L s t) (p : PairId) {v w : Value} (value : Value.Like L v w) :
    Like L (s.setTail p v) (t.setTail p w) :=
  { like with pairs := like.pairs.modify p.index fun pair => ⟨pair.head,value⟩ }

/-- A like result and a like store. -/
def Gives (L : Likeness) {α : Type} (A : α → α → Prop) (x y : α × Store) : Prop :=
  A x.1 y.1 ∧ Like L x.2 y.2

theorem cons (like : Like L s t) {a b c d : Value} (head : Value.Like L a b)
    (tail : Value.Like L c d) : Gives L (Value.Like L) (s.cons a c) (t.cons b d) := by
  refine ⟨?_,{ like with pairs := like.pairs.push ⟨head,tail⟩ }⟩
  rw [Store.cons,Store.cons,like.pairs.size]
  exact .pair _

theorem items (like : Like L s t) (i : VectorId) : Rows (Value.Like L) (s.items i) (t.items i) := by
  have found := like.vectors.get? i.index
  rw [Store.items,Store.items]
  generalize s.vectors[i.index]? = x,t.vectors[i.index]? = y at found ⊢
  cases found with
  | some rows => exact rows
  | none => exact .nil

theorem newVector (like : Like L s t) {xs ys : Array Value} (rows : Rows (Value.Like L) xs ys) :
    Gives L (Value.Like L) (s.newVector xs) (t.newVector ys) := by
  refine ⟨?_,{ like with vectors := like.vectors.push rows }⟩
  rw [Store.newVector,Store.newVector,like.vectors.size]
  exact .vector _

theorem setItem (like : Like L s t) (i : VectorId) (j : Nat) {v w : Value}
    (value : Value.Like L v w) : Like L (s.setItem i j v) (t.setItem i j w) :=
  { like with vectors := like.vectors.modify i.index fun rows => rows.set j value }

theorem nextFresh (like : Like L s t) : Gives L Eq s.nextFresh t.nextFresh :=
  ⟨like.fresh,{ like with fresh := congrArg (· + 1) like.fresh }⟩

theorem listWithTail (like : Like L s t) {a b : Value} (last : Value.Like L a b)
    {vs ws : List Value} (values : Value.LikeAll L vs ws) :
    Gives L (Value.Like L) (s.listWithTail a vs) (t.listWithTail b ws) := by
  induction values with
  | nil => exact ⟨last,like⟩
  | cons head _ ih => exact ih.2.cons head ih.1

theorem list (like : Like L s t) {vs ws : List Value} (values : Value.LikeAll L vs ws) :
    Gives L (Value.Like L) (s.list vs) (t.list ws) := like.listWithTail .nil values

mutual

theorem build {s t : Store} (like : Like L s t) : {d e : Datum} → Datum.Like L d e →
    Gives L (Value.Like L) (s.build d) (t.build e)
  | _,_,.unspecified => ⟨.unspecified,like⟩
  | _,_,.nil => ⟨.nil,like⟩
  | _,_,.boolean b => ⟨.boolean b,like⟩
  | _,_,.char c => ⟨.char c,like⟩
  | _,_,.string text label => ⟨.string text label,like⟩
  | _,_,.symbol name => ⟨.symbol name,like⟩
  | _,_,.number known => ⟨.number known,like⟩
  | _,_,.pair head tail =>
    have first := build like head
    have rest := build first.2 tail
    rest.2.cons first.1 rest.1
  | _,_,.vector items =>
    have all := buildAll like items
    all.2.newVector all.1

theorem buildAll {s t : Store} (like : Like L s t) : {ds es : List Datum} →
    List.Forall₂ (Datum.Like L) ds es → Gives L (Value.LikeAll L) (s.buildAll ds) (t.buildAll es)
  | _,_,.nil => ⟨.nil,like⟩
  | _,_,.cons head tail =>
    have first := build like head
    have rest := buildAll first.2 tail
    ⟨.cons first.1 rest.1,rest.2⟩

end

theorem walk (like : Like L s t) (limit : Nat) {v w : Value} (value : Value.Like L v w) :
    Value.LikeAll L (s.walk limit v).1 (t.walk limit w).1 ∧
      Value.Like L (s.walk limit v).2 (t.walk limit w).2 := by
  induction limit generalizing v w with
  | zero => exact ⟨.nil,value⟩
  | succ limit ih =>
    have ending := value
    cases value with
    | pair p =>
      have rest := ih (like.tail p)
      exact ⟨.cons (like.head p) rest.1,rest.2⟩
    | unspecified | nil | boolean | char | string | symbol | number | vector | closure | transformer
    | delayed | primitive | form => exact ⟨.nil,ending⟩

theorem cellCount (like : Like L s t) : s.cellCount = t.cellCount := by
  rw [Store.cellCount,Store.cellCount,like.pairs.size,like.vectors.size]

theorem write (like : Like L s t) (fuel : Nat) (path : List Cell) (place : Place) {v w : Value}
    (value : Value.Like L v w) : s.write fuel path place v = t.write fuel path place w := by
  induction fuel generalizing path place v w with
  | zero => rfl
  | succ fuel ih =>
    cases value with
    | pair p => simp only [Store.write,ih _ _ (like.head p),ih _ _ (like.tail p)]
    | vector i =>
      have texts : (s.items i).toList.map (s.write fuel (.vector i :: path) .alone) =
          (t.items i).toList.map (t.write fuel (.vector i :: path) .alone) :=
        (like.items i).map_eq fun item => ih _ _ item
      simp only [Store.write,texts]
    | unspecified | nil | boolean | char | string | symbol | number | closure | transformer
    | delayed | primitive | form => rfl

/-- Places do not show in the text of a value. -/
theorem text (like : Like L s t) {v w : Value} (value : Value.Like L v w) : s.text v = t.text w := by
  rw [Store.text,Store.text,like.cellCount]
  exact like.write _ [] .alone value

end Store.Like
end MiniScheme
