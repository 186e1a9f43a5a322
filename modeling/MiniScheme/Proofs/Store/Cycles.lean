import Mathlib.Logic.Relation
import MiniScheme.Proofs.Store.Unfolding

/-! Cycles in the store. A walk that passes no cell twice comes back to a cell it has passed if and
only if a cycle can be reached. Without a cycle a value unfolds to a tree, and is written as a
printer writes it that remembers nothing of where it is, however its parts are shared. -/
namespace MiniScheme.Store

open Relation

/-- `s.Inside v w`: the pair or vector `v` holds `w`. -/
inductive Inside (s : Store) : Value → Value → Prop where
  | head (p : PairId) : Inside s (.pair p) (s.head p)
  | tail (p : PairId) : Inside s (.pair p) (s.tail p)
  | item {i : VectorId} {w : Value} : w ∈ s.items i → Inside s (.vector i) w

/-- A cycle can be reached from `v` through pairs and vectors. -/
def CycleFrom (s : Store) (v : Value) : Prop :=
  ∃ c, ReflTransGen s.Inside v c ∧ TransGen s.Inside c c

/-- If the value is a cell, it is one of the store. -/
def Has (s : Store) (v : Value) : Prop := ∀ cell : Cell, v = cell.value → cell.Present s

/-- The cells of the store hold no cells but those of the store. -/
def Closed (s : Store) : Prop := ∀ v w : Value, s.Has v → s.Inside v w → s.Has w

/-- A step of a walk, known by the cells it has passed, innermost first, and the value it has come
to. It goes into a cell only once. -/
inductive Descends (s : Store) : List Cell × Value → List Cell × Value → Prop where
  | step {path : List Cell} {cell : Cell} {w : Value} : cell ∉ path → s.Inside cell.value w →
      Descends s (path,cell.value) (cell :: path,w)

/-- The cells of `trail`, no two of them equal, lead from `root` to `v`. -/
def Trail (s : Store) (root : Value) (trail : List Cell) (v : Value) : Prop :=
  ReflTransGen s.Descends ([],root) (trail,v)

variable {s : Store} {root v w : Value} {trail path : List Cell}

theorem Inside.cell (inside : s.Inside v w) : ∃ cell : Cell, v = cell.value := by
  cases inside with
  | head p => exact ⟨.pair p,rfl⟩
  | tail p => exact ⟨.pair p,rfl⟩
  | @item i _ _ => exact ⟨.vector i,rfl⟩

theorem has_cell {cell : Cell} : s.Has cell.value ↔ cell.Present s := by
  refine ⟨fun has => has cell rfl,?_⟩
  intro present other same
  cases cell <;> cases other <;> cases same <;> exact present

theorem has_pair {p : PairId} : s.Has (.pair p) ↔ p.index < s.pairs.size := @has_cell s (.pair p)

theorem has_vector {i : VectorId} : s.Has (.vector i) ↔ i.index < s.vectors.size := @has_cell s (.vector i)

theorem has_atom (atom : v.isCell = false) : s.Has v := by
  rintro (p | i) rfl <;> contradiction

theorem Has.pair {p : PairId} (has : s.Has (.pair p)) : s.pair? p = some ⟨s.head p,s.tail p⟩ := by
  have stored := Array.getElem?_eq_getElem (has_pair.mp has)
  rw [← Store.pair?] at stored
  rw [Store.head,Store.tail,stored]
  rfl

theorem Has.vector {i : VectorId} (has : s.Has (.vector i)) :
    s.vectors[i.index]? = some (s.items i) := by
  rw [Store.items,Array.getElem?_eq_getElem (has_vector.mp has)]
  rfl

theorem closed_of_cells (pairs : ∀ pair ∈ s.pairs, s.Has pair.head ∧ s.Has pair.tail)
    (vectors : ∀ items ∈ s.vectors, ∀ w ∈ items, s.Has w) : s.Closed := by
  intro v w has inside
  cases inside with
  | head p => exact (pairs _ (Array.mem_of_getElem? has.pair)).1
  | tail p => exact (pairs _ (Array.mem_of_getElem? has.pair)).2
  | item member => exact vectors _ (Array.mem_of_getElem? has.vector) _ member

/-- A walk reaches every cell it passes, and comes from there to where it is. -/
structure Passed (s : Store) (root : Value) (trail : List Cell) (v : Value) : Prop where
  nodup : trail.Nodup
  reached : ReflTransGen s.Inside root v
  cells : ∀ cell ∈ trail, ReflTransGen s.Inside root cell.value ∧ TransGen s.Inside cell.value v

theorem Trail.passed (walk : s.Trail root trail v) : s.Passed root trail v := by
  rw [Trail] at walk
  generalize at_ : (trail,v) = now at walk
  induction walk generalizing trail v with
  | refl =>
    cases at_
    exact ⟨.nil,.refl,by simp⟩
  | tail _ step ih =>
    cases at_
    cases step with
    | @step path cell _ fresh inside =>
      have before := ih rfl
      refine ⟨List.nodup_cons.mpr ⟨fresh,before.nodup⟩,before.reached.tail inside,?_⟩
      intro other member
      rcases List.mem_cons.mp member with rfl | earlier
      · exact ⟨before.reached,.single inside⟩
      · exact ⟨(before.cells other earlier).1,(before.cells other earlier).2.tail inside⟩

theorem Trail.has (heap : s.Closed) (present : s.Has root) (walk : s.Trail root trail v) :
    s.Has v := by
  have reached := walk.passed.reached
  clear walk
  induction reached with
  | refl => exact present
  | tail _ inside ih => exact heap _ _ ih inside

theorem Trail.present (heap : s.Closed) (present : s.Has root) (walk : s.Trail root trail v) :
    ∀ cell ∈ trail, cell.Present s := by
  intro cell member
  have reached := (walk.passed.cells cell member).1
  refine has_cell.mp ?_
  generalize cell.value = end_ at reached
  induction reached with
  | refl => exact present
  | tail _ inside ih => exact heap _ _ ih inside

section Unmarked

variable (clear : ∀ trail (cell : Cell), s.Trail root trail cell.value → cell ∉ trail)
include clear

/-- A walk that meets no cell again can go wherever the cells lead. -/
theorem Trail.extend (walk : s.Trail root trail v) (onward : ReflTransGen s.Inside v w) :
    ∃ longer, s.Trail root longer w ∧ ∀ cell ∈ trail, cell ∈ longer := by
  induction onward with
  | refl => exact ⟨trail,walk,fun _ member => member⟩
  | tail _ inside ih =>
    obtain ⟨longer,further,kept⟩ := ih
    obtain ⟨cell,rfl⟩ := inside.cell
    exact ⟨cell :: longer,further.tail (.step (clear _ _ further) inside),
      fun other member => List.mem_cons_of_mem cell (kept other member)⟩

theorem not_cycleFrom : ¬s.CycleFrom root := by
  rintro ⟨c,reached,around⟩
  obtain ⟨next,inside,back⟩ := TransGen.head'_iff.mp around
  obtain ⟨cell,rfl⟩ := inside.cell
  obtain ⟨trail,there,-⟩ := Trail.extend clear .refl reached
  have into : s.Trail root (cell :: trail) next := there.tail (.step (clear _ _ there) inside)
  obtain ⟨longer,again,kept⟩ := Trail.extend clear into back
  exact clear _ _ again (kept cell List.mem_cons_self)

end Unmarked

/-- A walk without repetitions meets one of its own cells if and only if there is a cycle. -/
theorem cycleFrom_iff :
    s.CycleFrom root ↔ ∃ trail, ∃ cell : Cell, s.Trail root trail cell.value ∧ cell ∈ trail := by
  constructor
  · intro cycle
    by_contra none
    exact not_cycleFrom (fun trail cell walk member => none ⟨trail,cell,walk,member⟩) cycle
  · rintro ⟨trail,cell,walk,member⟩
    exact ⟨cell.value,walk.passed.cells cell member⟩

/-! Values without cycles. -/

theorem exists_unfoldsAll {values : List Value} (each : ∀ w ∈ values, ∃ tree, s.Unfolds w tree) :
    ∃ trees, s.UnfoldsAll values trees := by
  induction values with
  | nil => exact ⟨[],.nil⟩
  | cons w values ih =>
    obtain ⟨first,rest⟩ := List.forall_mem_cons.mp each
    obtain ⟨tree,head⟩ := first
    obtain ⟨trees,tail⟩ := ih rest
    exact ⟨tree :: trees,.cons head tail⟩

/-- Each step down a trail leaves fewer cells to go into, so what it comes to has a tree. -/
theorem Trail.exists_unfolds (heap : s.Closed) (present : s.Has root) (acyclic : ¬s.CycleFrom root)
    {room : Nat} (walk : s.Trail root trail v) (enough : s.cellCount ≤ trail.length + room) :
    ∃ tree, s.Unfolds v tree := by
  induction room using Nat.strongRecOn generalizing trail v with
  | _ room ih =>
    by_cases atom : ∃ cell : Cell, v = cell.value
    · obtain ⟨cell,rfl⟩ := atom
      have fresh : cell ∉ trail := fun member => acyclic (cycleFrom_iff.mpr ⟨trail,cell,walk,member⟩)
      have has := walk.has heap present
      have cells : ∀ other ∈ cell :: trail, other.Present s :=
        List.forall_mem_cons.mpr ⟨has_cell.mp has,walk.present heap present⟩
      have bound := Cell.length_le (List.nodup_cons.mpr ⟨fresh,walk.passed.nodup⟩) cells
      have below {w : Value} (inside : s.Inside cell.value w) : ∃ tree, s.Unfolds w tree := by
        refine ih (room - 1) ?_ (walk.tail (.step fresh inside)) ?_ <;>
          simp only [List.length_cons] at * <;> omega
      cases cell with
      | pair p =>
        obtain ⟨left,head⟩ := below (.head p)
        obtain ⟨right,tail⟩ := below (.tail p)
        exact ⟨.pair left right,.pair has.pair head tail⟩
      | vector i =>
        obtain ⟨trees,items⟩ := exists_unfoldsAll fun w member =>
          below (.item (Array.mem_toList_iff.mp member))
        exact ⟨.vector trees,.vector has.vector items⟩
    · refine ⟨.leaf v,.leaf ?_⟩
      cases v with
      | pair p => exact (atom ⟨.pair p,rfl⟩).elim
      | vector i => exact (atom ⟨.vector i,rfl⟩).elim
      | unspecified | nil | boolean | char | string | symbol | number | closure | transformer
      | delayed | primitive | form => rfl

theorem UnfoldsAll.item {values : List Value} {trees : List Tree} (unfolds : s.UnfoldsAll values trees)
    (member : w ∈ values) : ∃ tree, s.Unfolds w tree ∧ tree.height ≤ Tree.heightAll trees := by
  induction values generalizing trees with
  | nil => contradiction
  | cons v values ih =>
    cases unfolds with
    | cons head tail =>
      rcases List.mem_cons.mp member with rfl | later
      · exact ⟨_,head,Nat.le_max_left ..⟩
      · obtain ⟨tree,unfolds,le⟩ := ih tail later
        exact ⟨tree,unfolds,Nat.le_trans le (Nat.le_max_right ..)⟩

theorem Unfolds.inside {tree : Tree} (unfolds : s.Unfolds v tree) (inside : s.Inside v w) :
    ∃ lower, s.Unfolds w lower ∧ lower.height < tree.height := by
  cases unfolds with
  | leaf atom => cases inside <;> contradiction
  | @pair p head tail left right cell first rest =>
    have parts : s.head p = head ∧ s.tail p = tail := by simp [Store.head,Store.tail,cell]
    cases inside with
    | head => exact ⟨left,parts.1 ▸ first,by simp only [Tree.height]; omega⟩
    | tail => exact ⟨right,parts.2 ▸ rest,by simp only [Tree.height]; omega⟩
  | @vector i items trees cell all =>
    have stored : s.items i = items := by simp [Store.items,cell]
    cases inside with
    | item member =>
      obtain ⟨tree,unfolds,le⟩ := all.item (Array.mem_toList_iff.mpr (stored ▸ member))
      exact ⟨tree,unfolds,Nat.lt_succ_of_le le⟩

theorem Unfolds.reached {tree : Tree} (unfolds : s.Unfolds v tree)
    (reached : ReflTransGen s.Inside v w) : ∃ lower, s.Unfolds w lower ∧ lower.height ≤ tree.height := by
  induction reached with
  | refl => exact ⟨tree,unfolds,Nat.le_refl _⟩
  | tail _ inside ih =>
    obtain ⟨middle,above,le⟩ := ih
    obtain ⟨lower,below,lt⟩ := above.inside inside
    exact ⟨lower,below,Nat.le_trans (Nat.le_of_lt lt) le⟩

/-- Trees get lower on the way down, so a value that has one leads into no cycle. -/
theorem Unfolds.acyclic {tree : Tree} (unfolds : s.Unfolds v tree) : ¬s.CycleFrom v := by
  rintro ⟨c,reached,around⟩
  obtain ⟨top,here,-⟩ := unfolds.reached reached
  obtain ⟨next,inside,back⟩ := TransGen.head'_iff.mp around
  obtain ⟨middle,below,lt⟩ := here.inside inside
  obtain ⟨lower,again,le⟩ := below.reached back
  rw [here.unique again] at lt
  exact Nat.lt_irrefl _ (Nat.lt_of_lt_of_le lt le)

/-! The plain printer. -/

/-- What stands behind the items of a list, where `write` writes the value that ends it. -/
def ending? (write : Value → Option String) : Value → Option String
  | .nil => some ""
  | .pair _ => none
  | other => (" . " ++ ·) <$> write other

/-- The text of a value by a printer that keeps no path: the items of a list with blanks between
them and, if it ends in anything but the empty list, a dot and its end; the items of a vector
behind a mark. It does not end on a cycle, so it has no answer if the fuel does not suffice. -/
def plain? (s : Store) : (fuel : Nat) → Value → Option String
  | 0, _ => none
  | fuel + 1, .pair p => do
    let (heads,last) := s.walk fuel (.pair p)
    let texts ← heads.mapM (s.plain? fuel)
    let ending ← ending? (s.plain? fuel) last
    return "(" ++ " ".intercalate texts ++ ending ++ ")"
  | fuel + 1, .vector i => do
    let texts ← (s.items i).toList.mapM (s.plain? fuel)
    return "#(" ++ " ".intercalate texts ++ ")"
  | _ + 1, atom => some atom.atomText

/-- What is found along a list whose tree is known: items and an end with trees of their own, which
make up the text of the list in tail place. -/
structure Spine (s : Store) (tree : Tree) (found : List Value × Value) (trees : List Tree)
    (last : Tree) : Prop where
  items : s.UnfoldsAll found.1 trees
  ending : s.Unfolds found.2 last
  ended : ∀ p, found.2 ≠ .pair p
  itemHeight : Tree.heightAll trees ≤ tree.height
  endHeight : last.height ≤ tree.height
  text : ∀ first, first ++ tree.write .tail =
    " ".intercalate (first :: Tree.writeAll trees) ++ last.write .tail

theorem Unfolds.spine {tree : Tree} {limit : Nat} (unfolds : s.Unfolds v tree)
    (enough : tree.height ≤ limit) : ∃ trees last, s.Spine tree (s.walk limit v) trees last := by
  induction limit generalizing v tree with
  | zero =>
    cases unfolds with
    | leaf atom =>
      have ended : ∀ p, v ≠ .pair p := by rintro p rfl; contradiction
      exact ⟨[],_,.nil,.leaf atom,ended,Nat.zero_le _,Nat.le_refl _,fun _ => rfl⟩
    | pair => simp only [Tree.height] at enough; omega
    | vector => simp only [Tree.height] at enough; omega
  | succ limit ih =>
    have whole := unfolds
    cases unfolds with
    | leaf atom =>
      have ended : ∀ p, v ≠ .pair p := by rintro p rfl; contradiction
      have stop : s.walk (limit + 1) v = ([],v) := by
        cases v <;> first | rfl | contradiction
      rw [stop]
      exact ⟨[],_,.nil,whole,ended,Nat.zero_le _,Nat.le_refl _,fun _ => rfl⟩
    | vector =>
      exact ⟨[],_,.nil,whole,nofun,Nat.zero_le _,Nat.le_refl _,fun _ => rfl⟩
    | @pair p head tail left right cell first rest =>
      have parts : s.head p = head ∧ s.tail p = tail := by simp [Store.head,Store.tail,cell]
      simp only [Tree.height] at enough
      obtain ⟨trees,last,below⟩ := ih rest (by omega)
      rw [Store.walk,parts.1,parts.2]
      refine ⟨left :: trees,last,.cons first below.items,below.ending,below.ended,?_,?_,?_⟩
      · have := below.itemHeight
        simp only [Tree.heightAll,Tree.height]
        omega
      · have := below.endHeight
        simp only [Tree.height]
        omega
      · intro text
        rw [Tree.writeAll,String.intercalate_cons_cons,String.append_assoc,← below.text,Tree.write]
        simp only [Place.enclosed,Place.separator,String.append_assoc]

theorem UnfoldsAll.plain? {values : List Value} {trees : List Tree} {fuel : Nat}
    (unfolds : s.UnfoldsAll values trees) (enough : Tree.heightAll trees < fuel)
    (each : ∀ {v tree}, s.Unfolds v tree → tree.height < fuel →
      s.plain? fuel v = some (tree.write .alone)) :
    values.mapM (s.plain? fuel) = some (Tree.writeAll trees) := by
  induction values generalizing trees with
  | nil => cases unfolds; rfl
  | cons v values ih =>
    cases unfolds with
    | cons head tail =>
      simp only [Tree.heightAll] at enough
      rw [List.mapM_cons,each head (by omega),ih tail (by omega)]
      rfl

theorem Unfolds.ending? {tree : Tree} {write : Value → Option String} (unfolds : s.Unfolds v tree)
    (ended : ∀ p, v ≠ .pair p) (alone : write v = some (tree.write .alone)) :
    ending? write v = some (tree.write .tail) := by
  cases unfolds with
  | pair => exact (ended _ rfl).elim
  | vector => rw [Store.ending?,alone] <;> first | rfl | nofun
  | leaf atom =>
    cases v with
    | nil => rfl
    | pair | vector => contradiction
    | unspecified | boolean | char | string | symbol | number | closure | transformer | delayed
    | primitive | form => rw [Store.ending?,alone] <;> first | rfl | nofun

/-- The plain printer writes a value that has a tree as its tree is written. -/
theorem Unfolds.plain? {tree : Tree} {fuel : Nat} (unfolds : s.Unfolds v tree)
    (enough : tree.height < fuel) : s.plain? fuel v = some (tree.write .alone) := by
  induction fuel generalizing v tree with
  | zero => contradiction
  | succ fuel ih =>
    have whole := unfolds
    cases unfolds with
    | leaf atom => cases v <;> first | rfl | contradiction
    | @vector i items trees cell inside =>
      have stored : s.items i = items := by simp [Store.items,cell]
      have texts := inside.plain? (Nat.lt_of_succ_lt_succ enough) ih
      rw [Store.plain?,stored,texts]
      rfl
    | @pair p head tail left right cell first rest =>
      have parts : s.head p = head ∧ s.tail p = tail := by simp [Store.head,Store.tail,cell]
      simp only [Tree.height] at enough
      obtain ⟨fuel,rfl⟩ : ∃ less, fuel = less + 1 := ⟨fuel - 1,by omega⟩
      obtain ⟨trees,last,spine⟩ := rest.spine (show right.height ≤ fuel by omega)
      have itemBound := spine.itemHeight
      have endBound := spine.endHeight
      have texts := spine.items.plain? (show Tree.heightAll trees < fuel + 1 by omega) ih
      have ending := spine.ending.ending? spine.ended (ih spine.ending (by omega))
      have parted : s.plain? (fuel + 2) (.pair p) = some ("(" ++ " ".intercalate
          (left.write .alone :: Tree.writeAll trees) ++ last.write .tail ++ ")") := by
        rw [Store.plain?,Store.walk,parts.1,parts.2]
        simp only [List.mapM_cons,ih first (by omega),texts]
        rw [ending]
        rfl
      have joined := spine.text (left.write .alone)
      rw [parted,Tree.write]
      simp only [Place.enclosed,Place.separator,String.empty_append,joined,String.append_assoc]

/-- Cycle detection does not disturb ordinary printing. A value from which no cycle can be reached is
written as the plain printer writes it, however its parts are shared, and the plain printer has an
answer for it. -/
theorem text_of_acyclic (heap : s.Closed) (present : s.Has v) (acyclic : ¬s.CycleFrom v) {fuel : Nat}
    (enough : s.cellCount < fuel) : s.plain? fuel v = some (s.text v) := by
  obtain ⟨tree,unfolds⟩ := Trail.exists_unfolds heap present acyclic .refl (Nat.le_add_left ..)
  rw [unfolds.plain? (Nat.lt_of_le_of_lt unfolds.height_le enough),unfolds.text_eq]

/-- A list whose head and tail are one list, in a vector that holds both. -/
def shared : Store :=
  { empty with
    pairs := #[⟨.boolean true,.nil⟩,⟨.pair ⟨0⟩,.pair ⟨0⟩⟩]
    vectors := #[#[.pair ⟨1⟩,.pair ⟨0⟩]] }

theorem text_of_acyclic_shared : shared.Closed ∧ shared.Has (.vector ⟨0⟩) ∧
    ¬shared.CycleFrom (.vector ⟨0⟩) ∧ shared.plain? 4 (.vector ⟨0⟩) = some (shared.text (.vector ⟨0⟩)) ∧
    shared.text (.vector ⟨0⟩) = "#(((#t) #t) (#t))" := by
  have short : shared.Unfolds (.pair ⟨0⟩) _ := .pair rfl (.leaf rfl) (.leaf rfl)
  have long : shared.Unfolds (.pair ⟨1⟩) _ := .pair rfl short short
  have whole : shared.Unfolds (.vector ⟨0⟩) _ := .vector rfl (.cons long (.cons short .nil))
  have heap : shared.Closed := by
    refine closed_of_cells ?_ ?_
    · simpa [shared,has_pair] using ⟨has_atom rfl,has_atom rfl⟩
    · simp [shared,has_pair]
  have present : shared.Has (.vector ⟨0⟩) := has_vector.mpr (by decide)
  exact ⟨heap,present,whole.acyclic,text_of_acyclic heap present whole.acyclic (by decide),by cbv⟩

end MiniScheme.Store
