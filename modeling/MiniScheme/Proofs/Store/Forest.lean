import MiniScheme.Proofs.Store.Frames

/-! Frames as a forest. A store is grounded if every frame is younger than its parent and all values
belong to frames that exist. Its operations keep it so and leave the parents of frames as they are.
In a grounded store the parents of a frame lead to an outermost one, and a definition is seen from
just those frames whose chain meets no other binding of the name first. -/
namespace MiniScheme

/-- The frame that a value belongs to, if any, is one of the first `n`. -/
def Value.Within (n : Nat) : Value → Prop
  | closure c => c.env.index < n
  | transformer t => t.env.index < n
  | delayed d => d.env.index < n
  | _ => True

def Value.WithinAll (n : Nat) (values : List Value) : Prop := ∀ v ∈ values, v.Within n

theorem Value.Within.mono {n m : Nat} {v : Value} (within : v.Within n) (le : n ≤ m) : v.Within m := by
  cases v with
  | closure | transformer | delayed => exact Nat.lt_of_lt_of_le within le
  | unspecified | nil | boolean | char | string | symbol | number | pair | vector | primitive | form =>
    trivial

theorem Value.WithinAll.mono {n m : Nat} {values : List Value} (within : WithinAll n values)
    (le : n ≤ m) : WithinAll m values := fun v member => (within v member).mono le

theorem Value.withinAll_nil (n : Nat) : WithinAll n [] := fun _ member => nomatch member

namespace Store

/-- The values that can be read from a store. -/
inductive Holds (s : Store) : Value → Prop where
  | bound {f : FrameId} {name : String} {v : Value} : s.binding? f name = some v → Holds s v
  | part {p : PairId} {pair : Pair} {v : Value} : s.pair? p = some pair →
      v = pair.head ∨ v = pair.tail → Holds s v
  | item {i : Nat} {items : Array Value} {v : Value} : s.vectors[i]? = some items → v ∈ items →
      Holds s v

/-- The parent of a frame, if the frame exists; an outermost frame has none. -/
def parent? (s : Store) (f : FrameId) : Option (Option FrameId) := (s.frame? f).map Frame.parent

structure Grounded (s : Store) : Prop where
  parents {f parent : FrameId} : s.parent? f = some (some parent) → parent.index < f.index
  values {v : Value} : s.Holds v → v.Within s.frames.size

/-- All frames are still there, and their parents are the same. -/
def Grows (s t : Store) : Prop := ∀ f parent, s.parent? f = some parent → t.parent? f = some parent

variable {s t u : Store} {f g : FrameId} {name key : String} {v value : Value}

theorem Grows.refl (s : Store) : s.Grows s := fun _ _ known => known

theorem Grows.trans (first : s.Grows t) (second : t.Grows u) : s.Grows u :=
  fun f parent known => second f parent (first f parent known)

theorem isSome_parent? : (s.parent? f).isSome ↔ f.index < s.frames.size := by
  simp [parent?,frame?]

theorem Grows.size (grows : s.Grows t) : s.frames.size ≤ t.frames.size := by
  by_contra fewer
  have last : (s.parent? ⟨t.frames.size⟩).isSome := isSome_parent?.mpr (by simpa using fewer)
  obtain ⟨parent,found⟩ := Option.isSome_iff_exists.mp last
  have kept : (t.parent? ⟨t.frames.size⟩).isSome := Option.isSome_iff_exists.mpr ⟨parent,grows _ _ found⟩
  exact absurd (isSome_parent?.mp kept) (Nat.lt_irrefl _)

/-! What the operations leave to be read. -/

theorem holds_define (holds : (s.define f name value).Holds v) : v = value ∨ s.Holds v := by
  cases holds with
  | bound found =>
    rw [binding?_define] at found
    split at found
    · exact .inl (Option.some.inj found).symm
    · exact .inr (.bound found)
  | part found side => exact .inr (.part found side)
  | item found member => exact .inr (.item found member)

theorem holds_defineAll {bindings : List (String × Value)} (holds : (s.defineAll f bindings).Holds v) :
    v ∈ bindings.map Prod.snd ∨ s.Holds v := by
  induction bindings generalizing s with
  | nil => exact .inr holds
  | cons binding rest ih =>
    rcases ih holds with new | old
    · exact .inl (List.mem_cons_of_mem _ new)
    · refine (holds_define old).imp_left fun same => ?_
      rw [same]
      exact List.mem_cons_self

theorem parent?_define : (s.define f name value).parent? g = s.parent? g := by
  rw [parent?,parent?,frame?_define]
  split
  · rw [Option.map_map]
    rfl
  · rfl

theorem holds_newFrame {parent : Option FrameId} (holds : (s.newFrame parent).2.Holds v) :
    s.Holds v := by
  cases holds with
  | @bound f name _ found =>
    obtain ⟨index⟩ := f
    simp only [binding?,frame?,newFrame,Array.getElem?_push] at found
    split at found
    · simp [Frame.find?] at found
    · exact .bound (f := ⟨index⟩) found
  | part found side => exact .part found side
  | item found member => exact .item found member

theorem parent?_newFrame (parent : Option FrameId) : (s.newFrame parent).2.parent? f =
    if f.index = s.frames.size then some parent else s.parent? f := by
  simp only [parent?,frame?,newFrame,Array.getElem?_push]
  split <;> rfl

theorem holds_cons {a b : Value} (holds : (s.cons a b).2.Holds v) : v = a ∨ v = b ∨ s.Holds v := by
  cases holds with
  | bound found => exact .inr (.inr (.bound found))
  | part found side =>
    simp only [pair?,cons,Array.getElem?_push] at found
    split at found
    · cases found
      exact side.imp_right .inl
    · exact .inr (.inr (.part found side))
  | item found member => exact .inr (.inr (.item found member))

theorem holds_setHead {p : PairId} (holds : (s.setHead p value).Holds v) : v = value ∨ s.Holds v := by
  cases holds with
  | bound found => exact .inr (.bound found)
  | part found side =>
    simp only [pair?,setHead,Array.getElem?_modify] at found
    split at found
    · obtain ⟨pair,there,rfl⟩ := Option.map_eq_some_iff.mp found
      exact side.imp_right fun tail => .part there (.inr tail)
    · exact .inr (.part found side)
  | item found member => exact .inr (.item found member)

theorem holds_setTail {p : PairId} (holds : (s.setTail p value).Holds v) : v = value ∨ s.Holds v := by
  cases holds with
  | bound found => exact .inr (.bound found)
  | part found side =>
    simp only [pair?,setTail,Array.getElem?_modify] at found
    split at found
    · obtain ⟨pair,there,rfl⟩ := Option.map_eq_some_iff.mp found
      exact side.symm.imp_right fun head => .part there (.inl head)
    · exact .inr (.part found side)
  | item found member => exact .inr (.item found member)

theorem holds_newVector {items : Array Value} (holds : (s.newVector items).2.Holds v) :
    v ∈ items ∨ s.Holds v := by
  cases holds with
  | bound found => exact .inr (.bound found)
  | part found side => exact .inr (.part found side)
  | item found member =>
    simp only [newVector,Array.getElem?_push] at found
    split at found
    · cases found; exact .inl member
    · exact .inr (.item found member)

theorem holds_setItem {i : VectorId} {j : Nat} (holds : (s.setItem i j value).Holds v) :
    v = value ∨ s.Holds v := by
  cases holds with
  | bound found => exact .inr (.bound found)
  | part found side => exact .inr (.part found side)
  | item found member =>
    simp only [setItem,Array.getElem?_modify] at found
    split at found
    · obtain ⟨items,there,rfl⟩ := Option.map_eq_some_iff.mp found
      rcases Array.mem_or_eq_of_mem_setIfInBounds member with old | new
      · exact .inr (.item there old)
      · exact .inl new
    · exact .inr (.item found member)

theorem holds_fresh {fresh : Nat} (holds : { s with fresh }.Holds v) : s.Holds v := by
  cases holds with
  | bound found => exact .bound found
  | part found side => exact .part found side
  | item found member => exact .item found member

/-! What the operations keep. -/

/-- The second store is grounded and has grown from the first. -/
structure Leads (s t : Store) : Prop where
  grounded : t.Grounded
  grows : s.Grows t

theorem Grounded.leads (grounded : s.Grounded) : s.Leads s := ⟨grounded,.refl s⟩

theorem Leads.trans (first : s.Leads t) (second : t.Leads u) : s.Leads u :=
  ⟨second.grounded,first.grows.trans second.grows⟩

theorem Leads.size (leads : s.Leads t) : s.frames.size ≤ t.frames.size := leads.grows.size

/-- An operation that makes no frame has only to see to the values. -/
theorem Grounded.keep (grounded : s.Grounded) (size : t.frames.size = s.frames.size)
    (parents : ∀ f, t.parent? f = s.parent? f) (values : ∀ {v}, t.Holds v → v.Within s.frames.size) :
    s.Leads t := by
  refine ⟨⟨fun {f _} known => grounded.parents ((parents f).symm.trans known),?_⟩,
    fun f _ known => (parents f).trans known⟩
  intro v holds
  rw [size]
  exact values holds

theorem Grounded.define (grounded : s.Grounded) (f : FrameId) (name : String)
    (within : value.Within s.frames.size) : s.Leads (s.define f name value) := by
  refine grounded.keep (by simp [Store.define]) (fun _ => parent?_define) fun holds => ?_
  rcases holds_define holds with rfl | old
  · exact within
  · exact grounded.values old

/-- A new frame is the youngest, so its parent is older. -/
theorem Grounded.newFrame (grounded : s.Grounded) (present : f.index < s.frames.size) :
    s.Leads (s.newFrame (some f)).2 := by
  refine ⟨⟨?_,?_⟩,?_⟩
  · intro g parent known
    rw [parent?_newFrame] at known
    split at known
    next youngest =>
      cases known
      omega
    next => exact grounded.parents known
  · intro v holds
    refine (grounded.values (holds_newFrame holds)).mono ?_
    simp [Store.newFrame]
  · intro g parent known
    have old := isSome_parent?.mp (Option.isSome_of_eq_some known)
    rw [parent?_newFrame,if_neg (Nat.ne_of_lt old)]
    exact known

theorem Grounded.cons (grounded : s.Grounded) {a b : Value} (head : a.Within s.frames.size)
    (tail : b.Within s.frames.size) : s.Leads (s.cons a b).2 := by
  refine grounded.keep rfl (fun _ => rfl) fun holds => ?_
  rcases holds_cons holds with rfl | rfl | old
  · exact head
  · exact tail
  · exact grounded.values old

theorem Grounded.setHead (grounded : s.Grounded) (p : PairId) (within : value.Within s.frames.size) :
    s.Leads (s.setHead p value) := by
  refine grounded.keep rfl (fun _ => rfl) fun holds => ?_
  rcases holds_setHead holds with rfl | old
  · exact within
  · exact grounded.values old

theorem Grounded.setTail (grounded : s.Grounded) (p : PairId) (within : value.Within s.frames.size) :
    s.Leads (s.setTail p value) := by
  refine grounded.keep rfl (fun _ => rfl) fun holds => ?_
  rcases holds_setTail holds with rfl | old
  · exact within
  · exact grounded.values old

theorem Grounded.newVector (grounded : s.Grounded) {items : Array Value}
    (within : ∀ v ∈ items, v.Within s.frames.size) : s.Leads (s.newVector items).2 := by
  refine grounded.keep rfl (fun _ => rfl) fun holds => ?_
  rcases holds_newVector holds with new | old
  · exact within _ new
  · exact grounded.values old

theorem Grounded.setItem (grounded : s.Grounded) (i : VectorId) (j : Nat)
    (within : value.Within s.frames.size) : s.Leads (s.setItem i j value) := by
  refine grounded.keep rfl (fun _ => rfl) fun holds => ?_
  rcases holds_setItem holds with rfl | old
  · exact within
  · exact grounded.values old

theorem Grounded.fresh (grounded : s.Grounded) (fresh : Nat) : s.Leads { s with fresh } :=
  grounded.keep rfl (fun _ => rfl) fun holds => grounded.values (holds_fresh holds)

theorem Grounded.list (grounded : s.Grounded) {values : List Value}
    (within : Value.WithinAll s.frames.size values) :
    s.Leads (s.list values).2 ∧ ∀ n, (s.list values).1.Within n := by
  induction values with
  | nil => exact ⟨grounded.leads,fun _ => trivial⟩
  | cons v values ih =>
    obtain ⟨leads,last⟩ := ih fun w member => within w (List.mem_cons_of_mem v member)
    have head := (within v List.mem_cons_self).mono leads.size
    exact ⟨leads.trans (leads.grounded.cons head (last _)),fun _ => trivial⟩

mutual

/-- What a datum denotes belongs to no frame. -/
theorem Grounded.build {s : Store} (grounded : s.Grounded) : (d : Datum) →
    s.Leads (s.build d).2 ∧ ∀ n, (s.build d).1.Within n
  | .unspecified | .nil | .boolean _ | .char _ | .string _ _ | .symbol _ | .number _ =>
    ⟨grounded.leads,fun _ => trivial⟩
  | .pair head tail =>
    have first := grounded.build head
    have rest := first.1.grounded.build tail
    have made := rest.1.grounded.cons (first.2 _) (rest.2 _)
    ⟨first.1.trans (rest.1.trans made),fun _ => trivial⟩
  | .vector items =>
    have all := grounded.buildAll items
    have made := all.1.grounded.newVector fun v member => all.2 _ v (by simpa using member)
    ⟨all.1.trans made,fun _ => trivial⟩

theorem Grounded.buildAll {s : Store} (grounded : s.Grounded) : (ds : List Datum) →
    s.Leads (s.buildAll ds).2 ∧ ∀ n, Value.WithinAll n (s.buildAll ds).1
  | [] => ⟨grounded.leads,Value.withinAll_nil⟩
  | d :: ds =>
    have first := grounded.build d
    have rest := first.1.grounded.buildAll ds
    ⟨first.1.trans rest.1,fun n => List.forall_mem_cons.mpr ⟨first.2 n,rest.2 n⟩⟩

end

/-! What is read. -/

theorem Grounded.lookup (grounded : s.Grounded) (found : s.lookup f name = some v) :
    v.Within s.frames.size := by
  obtain ⟨g,-,bound⟩ := List.exists_of_findSome?_eq_some found
  exact grounded.values (.bound bound)

theorem Grounded.head (grounded : s.Grounded) (p : PairId) : (s.head p).Within s.frames.size := by
  rw [Store.head]
  cases found : s.pair? p with
  | none => trivial
  | some pair => exact grounded.values (.part found (.inl rfl))

theorem Grounded.tail (grounded : s.Grounded) (p : PairId) : (s.tail p).Within s.frames.size := by
  rw [Store.tail]
  cases found : s.pair? p with
  | none => trivial
  | some pair => exact grounded.values (.part found (.inr rfl))

theorem Grounded.items (grounded : s.Grounded) {i : VectorId} (member : v ∈ s.items i) :
    v.Within s.frames.size := by
  rw [Store.items] at member
  cases found : s.vectors[i.index]? with
  | none =>
    rw [found] at member
    simp at member
  | some items =>
    rw [found] at member
    exact grounded.values (.item found member)

theorem Grounded.walk (grounded : s.Grounded) (limit : Nat) (within : v.Within s.frames.size) :
    Value.WithinAll s.frames.size (s.walk limit v).1 ∧ (s.walk limit v).2.Within s.frames.size := by
  induction limit generalizing v with
  | zero => exact ⟨Value.withinAll_nil _,within⟩
  | succ limit ih =>
    cases v with
    | pair p =>
      obtain ⟨values,last⟩ := ih (grounded.tail p)
      exact ⟨List.forall_mem_cons.mpr ⟨grounded.head p,values⟩,last⟩
    | unspecified | nil | boolean | char | string | symbol | number | vector | closure | transformer
    | delayed | primitive | form => exact ⟨Value.withinAll_nil _,within⟩

/-! Chains of parents. -/

/-- The frames from `f` on, each the parent of the one before, up to one that has none. -/
inductive Ancestry (s : Store) : FrameId → List FrameId → Prop where
  | outermost {f : FrameId} : s.parent? f = some none → Ancestry s f [f]
  | inner {f parent : FrameId} {rest : List FrameId} : s.parent? f = some (some parent) →
      Ancestry s parent rest → Ancestry s f (f :: rest)

theorem parent?_eq_some {parent : Option FrameId} (known : s.parent? f = some parent) :
    ∃ frame, s.frame? f = some frame ∧ frame.parent = parent :=
  Option.map_eq_some_iff.mp known

/-- As parents are older, no chain is longer than the number of its first frame says. -/
theorem Grounded.ancestry_within (grounded : s.Grounded) {limit : Nat}
    (present : f.index < s.frames.size) (enough : f.index < limit) :
    s.Ancestry f (s.chainWithin limit f) := by
  induction limit generalizing f with
  | zero => contradiction
  | succ limit ih =>
    obtain ⟨parent,known⟩ := Option.isSome_iff_exists.mp (isSome_parent?.mpr present)
    obtain ⟨frame,found,same⟩ := parent?_eq_some known
    rw [chainWithin,found]
    simp only [same]
    cases parent with
    | none => exact .outermost known
    | some parent =>
      have older := grounded.parents known
      exact .inner known (ih (by omega) (by omega))

theorem Grounded.ancestry (grounded : s.Grounded) (present : f.index < s.frames.size) :
    s.Ancestry f (s.chain f) := grounded.ancestry_within present (Nat.lt_succ_self _)

theorem Ancestry.unique {fs gs : List FrameId} (first : s.Ancestry f fs) (second : s.Ancestry f gs) :
    fs = gs := by
  induction first generalizing gs with
  | outermost known =>
    cases second with
    | outermost => rfl
    | inner other =>
      rw [known] at other
      cases other
  | inner known _ ih =>
    cases second with
    | outermost other =>
      rw [known] at other
      cases other
    | inner other rest =>
      rw [known,Option.some.injEq,Option.some.injEq] at other
      subst other
      rw [ih rest]

/-- The chain of a frame depends on the parents only. -/
theorem chain_congr (parents : ∀ f, s.parent? f = t.parent? f) (g : FrameId) :
    s.chain g = t.chain g := by
  have within (limit : Nat) (g : FrameId) : s.chainWithin limit g = t.chainWithin limit g := by
    induction limit generalizing g with
    | zero => rfl
    | succ limit ih =>
      have here := parents g
      simp only [parent?] at here
      rw [chainWithin,chainWithin]
      cases old : t.frame? g with
      | none =>
        rw [old,Option.map_none,Option.map_eq_none_iff] at here
        rw [here]
      | some frame =>
        rw [old,Option.map_some] at here
        obtain ⟨new,found,same⟩ := Option.map_eq_some_iff.mp here
        simp only [found,same,ih]
  exact within _ g

/-- Definitions leave the chains of parents as they are. -/
theorem chain_define : (s.define f name value).chain g = s.chain g :=
  chain_congr (fun _ => parent?_define) g

theorem lookup_congr (parents : ∀ f, s.parent? f = t.parent? f)
    (bindings : ∀ g, s.binding? g name = t.binding? g name) (f : FrameId) :
    s.lookup f name = t.lookup f name := by
  rw [lookup,lookup,chain_congr parents,funext bindings]

/-- A definition in `f` is found along a chain if the chain comes to `f` before it comes to any
other frame that binds the name; otherwise all is found as before. -/
theorem findSome?_define (present : f.index < s.frames.size) (chain : List FrameId) :
    chain.findSome? (fun g => (s.define f name value).binding? g key) =
      if key = name ∧ chain.find? (fun g => g = f ∨ (s.binding? g name).isSome) = some f then some value
      else chain.findSome? fun g => s.binding? g key := by
  have here : (s.frame? f).isSome := by simpa [frame?] using present
  simp only [binding?_define,here,and_true]
  by_cases same : key = name
  · subst same
    simp only [true_and,and_true]
    induction chain with
    | nil => rfl
    | cons g chain ih =>
      rw [List.findSome?_cons,List.find?_cons,List.findSome?_cons]
      by_cases first : g = f
      · simp [first]
      · cases bound : s.binding? g key with
        | none => simpa [first,bound] using ih
        | some w => simp [first]
  · simp [same]

end Store
end MiniScheme
