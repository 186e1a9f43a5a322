import Mathlib.Data.List.Nodup
import Mathlib.Data.List.Perm.Subperm
import MiniScheme.Store.Equal
import MiniScheme.Store.Text

/-! Acyclic values. A value without a cycle unfolds to a finite tree, however much its parts are
shared, and a cyclic one to none. The cells on a path down the tree are all different, so the tree
is no higher than there are cells, and the bounds for writing and comparing are never felt. -/
namespace MiniScheme

inductive Tree where
  | leaf (value : Value)
  | pair (head tail : Tree)
  | vector (items : List Tree)

namespace Tree

mutual

def height : Tree → Nat
  | leaf _ => 0
  | pair head tail => max head.height tail.height + 1
  | vector items => heightAll items + 1

def heightAll : List Tree → Nat
  | [] => 0
  | tree :: trees => max tree.height (heightAll trees)

end

mutual

/-- The plain printer: it remembers nothing of where it is. -/
def write (place : Place) : Tree → String
  | leaf .nil => if place = .tail then "" else Value.nil.atomText
  | leaf value => place.dotted value.atomText
  | pair head tail => place.enclosed (place.separator ++ head.write .alone ++ tail.write .tail)
  | vector items => place.dotted ("#(" ++ " ".intercalate (writeAll items) ++ ")")

def writeAll : List Tree → List String
  | [] => []
  | tree :: trees => tree.write .alone :: writeAll trees

end

end Tree

def Value.isCell : Value → Bool
  | .pair _ | .vector _ => true
  | _ => false

namespace Store

mutual

/-- `Unfolds s v tree`: following all pairs and vectors from `v` ends, and gives `tree`. -/
inductive Unfolds (s : Store) : Value → Tree → Prop where
  | leaf {v : Value} : v.isCell = false → Unfolds s v (.leaf v)
  | pair {p : PairId} {head tail : Value} {left right : Tree} : s.pair? p = some ⟨head,tail⟩ →
      Unfolds s head left → Unfolds s tail right → Unfolds s (.pair p) (.pair left right)
  | vector {i : VectorId} {items : Array Value} {trees : List Tree} :
      s.vectors[i.index]? = some items → UnfoldsAll s items.toList trees →
      Unfolds s (.vector i) (.vector trees)

inductive UnfoldsAll (s : Store) : List Value → List Tree → Prop where
  | nil : UnfoldsAll s [] []
  | cons {v : Value} {values : List Value} {tree : Tree} {trees : List Tree} :
      Unfolds s v tree → UnfoldsAll s values trees → UnfoldsAll s (v :: values) (tree :: trees)

end

mutual

theorem Unfolds.unique {s : Store} {v : Value} {tree other : Tree} (first : s.Unfolds v tree)
    (second : s.Unfolds v other) : tree = other := by
  cases first with
  | leaf atom =>
    cases second with
    | leaf => rfl
    | pair | vector => contradiction
  | pair cell left right =>
    cases second with
    | leaf atom => contradiction
    | pair again left' right' =>
      cases cell.symm.trans again
      rw [Unfolds.unique left left',Unfolds.unique right right']
  | vector cell inside =>
    cases second with
    | leaf atom => contradiction
    | vector again inside' =>
      cases cell.symm.trans again
      rw [UnfoldsAll.unique inside inside']

theorem UnfoldsAll.unique {s : Store} {values : List Value} {trees others : List Tree}
    (first : s.UnfoldsAll values trees) (second : s.UnfoldsAll values others) : trees = others := by
  cases first with
  | nil => cases second; rfl
  | cons head tail =>
    cases second with
    | cons head' tail' => rw [Unfolds.unique head head',UnfoldsAll.unique tail tail']

end

/-- All pairs and vectors of a store are in another one as well, unchanged. -/
structure Extends (s next : Store) : Prop where
  pairs : ∀ {p : PairId} {pair : Pair}, s.pair? p = some pair → next.pair? p = some pair
  vectors : ∀ {i : VectorId} {items : Array Value},
    s.vectors[i.index]? = some items → next.vectors[i.index]? = some items

theorem Extends.refl (s : Store) : s.Extends s := ⟨id,id⟩

theorem Extends.trans {s next middle : Store} (first : s.Extends middle) (second : middle.Extends next) :
    s.Extends next :=
  ⟨fun cell => second.pairs (first.pairs cell),fun cell => second.vectors (first.vectors cell)⟩

mutual

theorem Unfolds.extend {s next : Store} {v : Value} {tree : Tree} (unfolds : s.Unfolds v tree)
    (extension : s.Extends next) : next.Unfolds v tree := by
  cases unfolds with
  | leaf atom => exact .leaf atom
  | pair cell left right =>
    exact .pair (extension.pairs cell) (Unfolds.extend left extension) (Unfolds.extend right extension)
  | vector cell inside => exact .vector (extension.vectors cell) (UnfoldsAll.extend inside extension)

theorem UnfoldsAll.extend {s next : Store} {values : List Value} {trees : List Tree}
    (unfolds : s.UnfoldsAll values trees) (extension : s.Extends next) :
    next.UnfoldsAll values trees := by
  cases unfolds with
  | nil => exact .nil
  | cons head tail => exact .cons (Unfolds.extend head extension) (UnfoldsAll.extend tail extension)

end

end Store

namespace Cell

def value : Cell → Value
  | pair p => .pair p
  | vector i => .vector i

/-- The cell is one of the store. -/
def Present (s : Store) : Cell → Prop
  | pair p => p.index < s.pairs.size
  | vector i => i.index < s.vectors.size

/-- The place of a cell among all cells of a store, the pairs first. -/
def code (s : Store) : Cell → Nat
  | pair p => p.index
  | vector i => s.pairs.size + i.index

theorem code_bound {s : Store} {cell : Cell} (present : cell.Present s) :
    cell.code s < s.cellCount := by
  cases cell <;> simp only [Present,code,Store.cellCount] at * <;> omega

theorem code_injective {s : Store} {first second : Cell} (left : first.Present s)
    (right : second.Present s) (same : first.code s = second.code s) : first = second := by
  cases first with
  | pair p =>
    cases second with
    | pair q => cases p; cases q; cases same; rfl
    | vector j => simp only [Present,code] at *; omega
  | vector i =>
    cases second with
    | pair q => simp only [Present,code] at *; omega
    | vector j =>
      cases i
      cases j
      simp only [code,Nat.add_left_cancel_iff] at same
      rw [same]

/-- Different cells of a store are no more than there are. -/
theorem length_le {s : Store} {path : List Cell} (nodup : path.Nodup)
    (present : ∀ cell ∈ path, cell.Present s) : path.length ≤ s.cellCount := by
  have distinct : (path.map (code s)).Nodup := by
    refine List.Nodup.map_on ?_ nodup
    intro first inside second inside' same
    exact code_injective (present first inside) (present second inside') same
  have bounded : path.map (code s) ⊆ List.range s.cellCount := by
    intro code member
    obtain ⟨cell,inside,rfl⟩ := List.mem_map.mp member
    exact List.mem_range.mpr (code_bound (present cell inside))
  have le := (distinct.subperm bounded).length_le
  rwa [List.length_map,List.length_range] at le

end Cell

namespace Store

section Paths

variable {s : Store} {tree : Tree} {path : List Cell} {height : Nat}

/-- The cells of a path, innermost first, down to a place where `height` more levels may follow. -/
structure Above (s : Store) (path : List Cell) (height : Nat) : Prop where
  nodup : path.Nodup
  higher : ∀ cell ∈ path, ∃ tree, s.Unfolds cell.value tree ∧ height < tree.height

theorem Above.start (s : Store) (height : Nat) : s.Above [] height := ⟨.nil,by simp⟩

/-- No cell is met again below itself, as its tree would be higher than itself. -/
theorem Above.fresh {cell : Cell} (unfolds : s.Unfolds cell.value tree)
    (above : s.Above path tree.height) : cell ∉ path := by
  intro member
  obtain ⟨other,again,higher⟩ := above.higher cell member
  rw [unfolds.unique again] at higher
  exact Nat.lt_irrefl _ higher

theorem Above.step {cell : Cell} (unfolds : s.Unfolds cell.value tree)
    (above : s.Above path tree.height) (lower : height < tree.height) :
    s.Above (cell :: path) height := by
  refine ⟨List.nodup_cons.mpr ⟨above.fresh unfolds,above.nodup⟩,?_⟩
  intro other member
  rcases List.mem_cons.mp member with rfl | below
  · exact ⟨tree,unfolds,lower⟩
  · obtain ⟨whole,again,higher⟩ := above.higher other below
    exact ⟨whole,again,Nat.lt_trans lower higher⟩

theorem Above.mono {lower : Nat} (above : s.Above path height) (le : lower ≤ height) :
    s.Above path lower := by
  refine ⟨above.nodup,?_⟩
  intro cell member
  obtain ⟨tree,unfolds,higher⟩ := above.higher cell member
  exact ⟨tree,unfolds,Nat.lt_of_le_of_lt le higher⟩

theorem pair?_bound {p : PairId} {pair : Pair} (cell : s.pair? p = some pair) :
    p.index < s.pairs.size := (Array.getElem?_eq_some_iff.mp cell).1

theorem vector_bound {i : VectorId} {items : Array Value} (cell : s.vectors[i.index]? = some items) :
    i.index < s.vectors.size := (Array.getElem?_eq_some_iff.mp cell).1

theorem Unfolds.present {cell : Cell} (unfolds : s.Unfolds cell.value tree) : cell.Present s := by
  cases cell with
  | pair p =>
    cases unfolds with
    | leaf atom => contradiction
    | pair stored _ _ => exact pair?_bound stored
  | vector i =>
    cases unfolds with
    | leaf atom => contradiction
    | vector stored _ => exact vector_bound stored

/-- The cells of a path are different cells of the store, so there are enough of them. -/
theorem Above.length_le (above : s.Above path height) : path.length ≤ s.cellCount := by
  refine Cell.length_le above.nodup fun cell member => ?_
  obtain ⟨_,unfolds,_⟩ := above.higher cell member
  exact unfolds.present

end Paths

mutual

/-- A path down to a value and a longest one on from it fit into the store together. -/
theorem Unfolds.path_le {s : Store} {v : Value} {tree : Tree} {path : List Cell}
    (unfolds : s.Unfolds v tree) (above : s.Above path tree.height) :
    path.length + tree.height ≤ s.cellCount := by
  cases unfolds with
  | leaf atom => exact above.length_le
  | @pair p _ _ leftTree rightTree cell left right =>
    have whole : s.Unfolds (Cell.pair p).value _ := .pair cell left right
    have first := Unfolds.path_le left (above.step whole (by simp only [Tree.height]; omega))
    have second := Unfolds.path_le right (above.step whole (by simp only [Tree.height]; omega))
    simp only [List.length_cons,Tree.height] at *
    omega
  | @vector i _ _ cell inside =>
    have whole : s.Unfolds (Cell.vector i).value _ := .vector cell inside
    have items := UnfoldsAll.path_le inside (above.step whole (Nat.lt_succ_self _))
    simp only [List.length_cons,Tree.height] at *
    omega

theorem UnfoldsAll.path_le {s : Store} {values : List Value} {trees : List Tree}
    {path : List Cell} (unfolds : s.UnfoldsAll values trees)
    (above : s.Above path (Tree.heightAll trees)) :
    path.length + Tree.heightAll trees ≤ s.cellCount := by
  cases unfolds with
  | nil => exact above.length_le
  | cons head tail =>
    have first := Unfolds.path_le head (above.mono (Nat.le_max_left ..))
    have rest := UnfoldsAll.path_le tail (above.mono (Nat.le_max_right ..))
    simp only [Tree.heightAll]
    omega

end

/-- The tree of a value is no higher than there are cells. -/
theorem Unfolds.height_le {s : Store} {v : Value} {tree : Tree} (unfolds : s.Unfolds v tree) :
    tree.height ≤ s.cellCount := by
  have bound := unfolds.path_le (.start s _)
  simpa using bound

theorem write_leaf {s : Store} {v : Value} (atom : v.isCell = false) (fuel : Nat) (path : List Cell)
    (place : Place) : s.write (fuel + 1) path place v = (Tree.leaf v).write place := by
  cases v <;> first | rfl | contradiction

mutual

/-- With enough fuel, and nothing but higher cells on the path, the path plays no part. -/
theorem Unfolds.write_eq {s : Store} {v : Value} {tree : Tree} {path : List Cell} {fuel : Nat}
    (unfolds : s.Unfolds v tree) (above : s.Above path tree.height) (enough : tree.height < fuel)
    (place : Place) : s.write fuel path place v = tree.write place := by
  obtain ⟨fuel,rfl⟩ : ∃ less, fuel = less + 1 := ⟨fuel - 1,by omega⟩
  cases unfolds with
  | leaf atom => exact write_leaf atom fuel path place
  | @pair p head tail leftTree rightTree cell left right =>
    have whole : s.Unfolds (Cell.pair p).value _ := .pair cell left right
    have first : leftTree.height < (Tree.pair leftTree rightTree).height := by
      simp only [Tree.height]; omega
    have second : rightTree.height < (Tree.pair leftTree rightTree).height := by
      simp only [Tree.height]; omega
    have headText := Unfolds.write_eq left (above.step whole first) (Nat.lt_of_lt_of_le first
      (Nat.le_of_lt_succ enough)) .alone
    have tailText := Unfolds.write_eq right (above.step whole second) (Nat.lt_of_lt_of_le second
      (Nat.le_of_lt_succ enough)) .tail
    have parts : s.head p = head ∧ s.tail p = tail := by simp [Store.head,Store.tail,cell]
    rw [write,if_neg (above.fresh whole),parts.1,parts.2,headText,tailText,Tree.write]
  | @vector i items trees cell inside =>
    have whole : s.Unfolds (Cell.vector i).value _ := .vector cell inside
    have lower : Tree.heightAll trees < (Tree.vector trees).height := Nat.lt_succ_self _
    have texts := UnfoldsAll.write_eq inside (above.step whole lower) (Nat.lt_of_lt_of_le lower
      (Nat.le_of_lt_succ enough))
    have stored : s.items i = items := by simp [Store.items,cell]
    rw [write,if_neg (above.fresh whole),stored,texts,Tree.write]

theorem UnfoldsAll.write_eq {s : Store} {values : List Value} {trees : List Tree}
    {path : List Cell} {fuel : Nat} (unfolds : s.UnfoldsAll values trees)
    (above : s.Above path (Tree.heightAll trees)) (enough : Tree.heightAll trees < fuel) :
    values.map (s.write fuel path .alone) = Tree.writeAll trees := by
  cases unfolds with
  | nil => rfl
  | @cons _ _ tree trees head tail =>
    have first : tree.height ≤ Tree.heightAll (tree :: trees) := Nat.le_max_left ..
    have rest : Tree.heightAll trees ≤ Tree.heightAll (tree :: trees) := Nat.le_max_right ..
    rw [List.map_cons,Unfolds.write_eq head (above.mono first) (Nat.lt_of_le_of_lt first enough),
      UnfoldsAll.write_eq tail (above.mono rest) (Nat.lt_of_le_of_lt rest enough),Tree.writeAll]

end

/-- An acyclic value is written as the plain printer writes its tree. -/
theorem Unfolds.text_eq {s : Store} {v : Value} {tree : Tree} (unfolds : s.Unfolds v tree) :
    s.text v = tree.write .alone :=
  unfolds.write_eq (.start s _) (Nat.lt_succ_of_le unfolds.height_le) .alone

end Store
end MiniScheme
