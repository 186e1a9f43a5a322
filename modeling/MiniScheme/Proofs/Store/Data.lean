import MiniScheme.Proofs.Node.Marks
import MiniScheme.Proofs.Number.Written
import MiniScheme.Proofs.Store.Unfolding

/-! Data in the store. A value holds a datum if it unfolds to the datum's tree. Building a datum
adds cells, changes none, and gives a value that holds it. Values that hold the same datum, up to
the labels of strings, are equal. -/
namespace MiniScheme

namespace Text

def isPrintable (c : Char) : Bool := 0x20 ≤ c.toNat && c.toNat ≤ 0x7E

end Text

namespace Datum

def isVector : Datum → Bool
  | vector _ => true
  | _ => false

mutual

/-- Data whose written form can be read back. A symbol has to be a symbol on its own, and a vector
behind a dot cannot be read. -/
def Readable : Datum → Prop
  | unspecified => False
  | nil | boolean _ | char _ => True
  | string text _ => ∀ c ∈ text.toList, Text.isPrintable c = true
  | symbol name => ∃ source pos, Token.scan name source = .ok [.atom .symbol name pos]
  | number n => n.IsExactWord
  | pair head tail => head.Readable ∧ tail.Readable ∧ tail.isVector = false
  | vector items => ReadableAll items

def ReadableAll : List Datum → Prop
  | [] => True
  | d :: ds => d.Readable ∧ ReadableAll ds

end

mutual

/-- Data in which every number is the same as itself. The undefined number is not. -/
def Settled : Datum → Prop
  | number n => n.same n = true
  | pair head tail => head.Settled ∧ tail.Settled
  | vector items => SettledAll items
  | unspecified | nil | boolean _ | char _ | string _ _ | symbol _ => True

def SettledAll : List Datum → Prop
  | [] => True
  | d :: ds => d.Settled ∧ SettledAll ds

end

mutual

theorem Readable.settled : (d : Datum) → d.Readable → d.Settled
  | number _,readable => Number.same_self readable
  | pair head tail,readable => ⟨Readable.settled head readable.1,Readable.settled tail readable.2.1⟩
  | vector items,readable => ReadableAll.settled items readable
  | unspecified,_ | nil,_ | boolean _,_ | char _,_ | string _ _,_ | symbol _,_ => trivial

theorem ReadableAll.settled : (ds : List Datum) → ReadableAll ds → SettledAll ds
  | [],_ => trivial
  | d :: ds,readable => ⟨Readable.settled d readable.1,ReadableAll.settled ds readable.2⟩

end

mutual

/-- The tree of the values that hold a datum. -/
def tree : Datum → Tree
  | unspecified => .leaf .unspecified
  | nil => .leaf .nil
  | boolean b => .leaf (.boolean b)
  | char c => .leaf (.char c)
  | string text label => .leaf (.string text label)
  | symbol name => .leaf (.symbol name)
  | number n => .leaf (.number n)
  | pair head tail => .pair head.tree tail.tree
  | vector items => .vector (treeAll items)

def treeAll : List Datum → List Tree
  | [] => []
  | d :: ds => d.tree :: treeAll ds

end

end Datum

namespace Store

theorem fresh_extends (s : Store) (fresh : Nat) : s.Extends { s with fresh } := ⟨id,id⟩

theorem cons_extends (s : Store) (head tail : Value) : s.Extends (s.cons head tail).2 := by
  refine ⟨?_,id⟩
  intro p pair cell
  have bound := pair?_bound cell
  rw [pair?,cons,Array.getElem?_push_lt bound]
  rwa [pair?,Array.getElem?_eq_getElem bound] at cell

theorem newVector_extends (s : Store) (items : Array Value) : s.Extends (s.newVector items).2 := by
  refine ⟨id,?_⟩
  intro i found cell
  have bound := vector_bound cell
  rw [newVector,Array.getElem?_push_lt bound]
  rwa [Array.getElem?_eq_getElem bound] at cell

theorem cons_pair? (s : Store) (head tail : Value) :
    (s.cons head tail).2.pair? ⟨s.pairs.size⟩ = some ⟨head,tail⟩ := by
  simp [cons,pair?]

mutual

/-- Building leaves all cells as they are. -/
theorem build_extends : (d : Datum) → (s : Store) → s.Extends (s.build d).2
  | .pair head tail, s =>
    (build_extends head s).trans ((build_extends tail _).trans (cons_extends ..))
  | .vector items, s => (buildAll_extends items s).trans (newVector_extends ..)
  | .unspecified, s | .nil, s | .boolean _, s | .char _, s | .string _ _, s | .symbol _, s
  | .number _, s => .refl s

theorem buildAll_extends : (ds : List Datum) → (s : Store) → s.Extends (s.buildAll ds).2
  | [], s => .refl s
  | d :: ds, s => (build_extends d s).trans (buildAll_extends ds _)

end

mutual

/-- What was built holds the datum. -/
theorem build_unfolds : (d : Datum) → (s : Store) →
    (s.build d).2.Unfolds (s.build d).1 d.tree
  | .pair head tail, s => by
    have grown : ((s.build head).2.build tail).2.Extends (s.build (.pair head tail)).2 :=
      cons_extends ..
    have left := build_unfolds head s
    have right := build_unfolds tail (s.build head).2
    exact .pair (cons_pair? ..) (left.extend ((build_extends tail _).trans grown)) (right.extend grown)
  | .vector items, s => by
    have inside := buildAll_unfolds items s
    have cell : (s.build (.vector items)).2.vectors[(s.buildAll items).2.vectors.size]? =
        some (s.buildAll items).1.toArray := by simp [build,newVector]
    exact .vector cell (inside.extend (newVector_extends ..))
  | .unspecified, s | .nil, s | .boolean _, s | .char _, s | .string _ _, s | .symbol _, s
  | .number _, s => .leaf rfl

theorem buildAll_unfolds : (ds : List Datum) → (s : Store) →
    (s.buildAll ds).2.UnfoldsAll (s.buildAll ds).1 (Datum.treeAll ds)
  | [], _ => .nil
  | d :: ds, s =>
    .cons ((build_unfolds d s).extend (buildAll_extends ds _)) (buildAll_unfolds ds _)

end

theorem sameWithin_pair {s : Store} {fuel : Nat} {p q : PairId} {a b c d : Value}
    (first : s.pair? p = some ⟨a,b⟩) (second : s.pair? q = some ⟨c,d⟩)
    (heads : s.sameWithin fuel a c = true) (tails : s.sameWithin fuel b d = true) :
    s.sameWithin (fuel + 1) (.pair p) (.pair q) = true := by
  simp [sameWithin,head,tail,first,second,heads,tails]

theorem sameWithin_vector {s : Store} {fuel : Nat} {i j : VectorId} {as bs : Array Value}
    (first : s.vectors[i.index]? = some as) (second : s.vectors[j.index]? = some bs)
    (sizes : as.toList.length = bs.toList.length)
    (items : (as.toList.zip bs.toList).all (fun both => s.sameWithin fuel both.1 both.2) = true) :
    s.sameWithin (fuel + 1) (.vector i) (.vector j) = true := by
  have left : s.items i = as := by simp [Store.items,first]
  have right : s.items j = bs := by simp [Store.items,second]
  have size : as.size = bs.size := sizes
  rw [sameWithin,left,right,items,size]
  simp

/-- An atom without its label still tells which atom it is. -/
theorem sameWithin_atom {s : Store} {d other : Datum} {v w : Value} {fuel : Nat}
    (settled : d.Settled) (same : d.bare = other.bare) (atom : d.tree = .leaf v)
    (right : s.Unfolds w other.tree) : s.sameWithin (fuel + 1) v w = true := by
  cases d with
  | pair | vector => contradiction
  | number n =>
    cases other <;> cases same
    cases atom
    cases right
    exact settled
  | unspecified | nil | boolean | char | string | symbol =>
    cases other <;> cases same
    cases atom
    cases right
    simp [sameWithin,Value.eqv]

mutual

/-- Data without cycles are compared to the end. -/
theorem sameWithin_of_bare {s : Store} {v w : Value} {fuel : Nat} (d other : Datum)
    (settled : d.Settled) (same : d.bare = other.bare) (left : s.Unfolds v d.tree)
    (right : s.Unfolds w other.tree) (enough : d.tree.height < fuel) :
    s.sameWithin fuel v w = true := by
  obtain ⟨fuel,rfl⟩ : ∃ less, fuel = less + 1 := ⟨fuel - 1,by omega⟩
  cases d with
  | unspecified | nil | boolean | char | string | symbol | number =>
    cases left
    exact sameWithin_atom settled same rfl right
  | pair a b =>
    cases other with
    | pair c d =>
      simp only [Datum.bare,Datum.relabel,Datum.pair.injEq] at same
      simp only [Datum.tree,Tree.height] at enough
      cases left with
      | pair cell head tail =>
        cases right with
        | pair cell' head' tail' =>
          exact sameWithin_pair cell cell'
            (sameWithin_of_bare a c settled.1 same.1 head head' (by omega))
            (sameWithin_of_bare b d settled.2 same.2 tail tail' (by omega))
    | unspecified | nil | boolean | char | string | symbol | number | vector => cases same
  | vector as =>
    cases other with
    | vector bs =>
      simp only [Datum.bare,Datum.relabel,Datum.vector.injEq] at same
      simp only [Datum.tree,Tree.height] at enough
      cases left with
      | vector cell inside =>
        cases right with
        | vector cell' inside' =>
          obtain ⟨sizes,items⟩ :=
            sameWithin_of_bareAll as bs settled same inside inside' (Nat.lt_of_succ_lt_succ enough)
          exact sameWithin_vector cell cell' sizes items
    | unspecified | nil | boolean | char | string | symbol | number | pair => cases same

theorem sameWithin_of_bareAll {s : Store} {vs ws : List Value} {fuel : Nat}
    (ds others : List Datum) (settled : Datum.SettledAll ds)
    (same : Datum.relabelAll (fun _ => 0) ds = Datum.relabelAll (fun _ => 0) others)
    (left : s.UnfoldsAll vs (Datum.treeAll ds)) (right : s.UnfoldsAll ws (Datum.treeAll others))
    (enough : Tree.heightAll (Datum.treeAll ds) < fuel) : vs.length = ws.length ∧
      (vs.zip ws).all (fun both => s.sameWithin fuel both.1 both.2) = true := by
  cases ds with
  | nil =>
    cases others with
    | nil => cases left; cases right; exact ⟨rfl,rfl⟩
    | cons => cases same
  | cons d ds =>
    cases others with
    | nil => cases same
    | cons other others =>
      simp only [Datum.relabelAll,List.cons.injEq] at same
      simp only [Datum.treeAll,Tree.heightAll] at enough
      cases left with
      | cons head tail =>
        cases right with
        | cons head' tail' =>
          obtain ⟨sizes,items⟩ := sameWithin_of_bareAll ds others settled.2 same.2 tail tail'
            (Nat.lt_of_le_of_lt (Nat.le_max_right ..) enough)
          have first := sameWithin_of_bare d other settled.1 same.1 head head'
            (Nat.lt_of_le_of_lt (Nat.le_max_left ..) enough)
          rw [List.zip_cons_cons,List.all_cons,first,items,List.length_cons,List.length_cons,sizes]
          exact ⟨rfl,rfl⟩

end

/-- Values that hold the same datum are equal. -/
theorem same_of_settled {s : Store} {v w : Value} {d other : Datum} (settled : d.Settled)
    (same : d.bare = other.bare) (left : s.Unfolds v d.tree) (right : s.Unfolds w other.tree) :
    s.same v w = true := by
  refine sameWithin_of_bare d other settled same left right ?_
  calc d.tree.height ≤ s.cellCount := left.height_le
    _ ≤ (s.cellCount + 1) * (s.cellCount + 1) :=
      Nat.le_trans (Nat.le_succ _) (Nat.le_mul_of_pos_left _ (Nat.succ_pos _))
    _ < (s.cellCount + 1) * (s.cellCount + 1) + 1 := Nat.lt_succ_self _

theorem same_of_bare {s : Store} {v w : Value} {d other : Datum} (readable : d.Readable)
    (same : d.bare = other.bare) (left : s.Unfolds v d.tree) (right : s.Unfolds w other.tree) :
    s.same v w = true :=
  same_of_settled (Datum.Readable.settled d readable) same left right

end Store
end MiniScheme
