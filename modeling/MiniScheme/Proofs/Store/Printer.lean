import Mathlib.Data.Finset.SDiff
import MiniScheme.Proofs.Store.Cycles

/-! Writing as a process. A printer that works on one page keeps the set of cells it is inside of, and
takes those it went into out of it again. It ends on every store, cyclic or not, having written the
text of the value, and puts the mark of a cycle if and only if there is one. -/
namespace MiniScheme.Store

open Relation

/-- What happened at a cell: the cells that were being written when it was met, and whether it was
marked, and not gone into. -/
structure Visit where
  cell : Cell
  path : Finset Cell
  marked : Bool

/-- The text so far, the cells that are being written, and all cells met. -/
structure Page where
  text : String
  path : Finset Cell
  visits : List Visit

namespace Page

def blank : Page := ⟨"",∅,[]⟩

def put (more : String) (page : Page) : Page := { page with text := page.text ++ more }

def enter (cell : Cell) (page : Page) : Page :=
  { page with path := insert cell page.path, visits := ⟨cell,page.path,false⟩ :: page.visits }

def leave (cells : List Cell) (page : Page) : Page := { page with path := page.path \ cells.toFinset }

/-- Writes the mark of a cycle in place of a cell. -/
def mark (cell : Cell) (ellipsis : String) (page : Page) : Page :=
  { page with text := page.text ++ ellipsis, visits := ⟨cell,page.path,true⟩ :: page.visits }

/-- Cells that were not in the set before are taken out of it without a trace. -/
theorem leave_path {page : Page} {before : Finset Cell} {cells : List Cell}
    (grown : page.path = before ∪ cells.toFinset) (new : ∀ cell ∈ cells, cell ∉ before) :
    (page.leave cells).path = before := by
  ext cell
  simp only [leave,grown,Finset.mem_sdiff,Finset.mem_union,List.mem_toFinset]
  constructor
  · rintro ⟨old | added,kept⟩
    · exact old
    · exact (kept added).elim
  · exact fun old => ⟨.inl old,fun added => new cell added old⟩

end Page

section Loops

variable (write : Value → Page → Option Page)

/-- The items of a vector, with blanks between them. -/
def printItems : (first : Bool) → List Value → Page → Option Page
  | _, [], page => some page
  | first, item :: items, page => do
    let page ← write item (page.put (if first then "" else " "))
    printItems false items page

/-- Goes along a list, and collects the cells it goes into. -/
def printSpine (s : Store) : (limit : Nat) → (first : Bool) → (entered : List Cell) → Value → Page →
    Option (List Cell × Page)
  | 0, _, _, _, _ => none
  | _ + 1, _, entered, .nil, page => some (entered,page)
  | limit + 1, first, entered, .pair p, page =>
    if .pair p ∈ page.path then some (entered,page.mark (.pair p) " ...")
    else do
      let page ← write (s.head p) ((page.enter (.pair p)).put (if first then "" else " "))
      s.printSpine limit false (.pair p :: entered) (s.tail p) page
  | _ + 1, _, entered, other, page => do
    let page ← write other (page.put " . ")
    return (entered,page)

def printList (s : Store) (limit : Nat) (v : Value) (page : Page) : Option Page := do
  let (entered,page) ← s.printSpine write limit true [] v (page.put "(")
  return (page.leave entered).put ")"

end Loops

/-- Writes a value on a page; none if the fuel does not suffice. -/
def print (s : Store) : (fuel : Nat) → Value → Page → Option Page
  | 0, _, _ => none
  | fuel + 1, .pair p, page => s.printList (s.print fuel) fuel (.pair p) page
  | fuel + 1, .vector i, page =>
    if .vector i ∈ page.path then some (page.mark (.vector i) "...")
    else do
      let page ← printItems (s.print fuel) true (s.items i).toList ((page.enter (.vector i)).put "#(")
      return (page.put ")").leave [.vector i]
  | _ + 1, atom, page => some (page.put atom.atomText)

variable {s : Store} {v w : Value} {path : List Cell} {page after : Page}

/-! The set is as before after every call. -/

section Restoring

variable {write : Value → Page → Option Page}
  (restores : ∀ {v page after}, write v page = some after → after.path = page.path)
include restores

theorem printItems_path {first : Bool} {items : List Value}
    (written : printItems write first items page = some after) : after.path = page.path := by
  induction items generalizing first page with
  | nil => cases written; rfl
  | cons item items ih =>
    obtain ⟨middle,one,rest⟩ := Option.bind_eq_some_iff.mp written
    rw [ih rest,restores one,Page.put]

/-- A list adds the cells it goes into, which were not in the set. -/
theorem printSpine_path {limit : Nat} {first : Bool} {entered all : List Cell}
    (written : s.printSpine write limit first entered v page = some (all,after)) :
    ∃ fresh, all = fresh ++ entered ∧ after.path = page.path ∪ fresh.toFinset ∧
      ∀ cell ∈ fresh, cell ∉ page.path := by
  fun_induction printSpine write s limit first entered v page with
  | case1 => contradiction
  | case2 => cases written; exact ⟨[],by simp⟩
  | case3 => cases written; exact ⟨[],by simp [Page.mark]⟩
  | case4 limit first entered p page unseen ih =>
    obtain ⟨middle,head,rest⟩ := Option.bind_eq_some_iff.mp written
    obtain ⟨fresh,split,grown,new⟩ := ih middle rest
    have inside : middle.path = insert (.pair p) page.path := restores head
    rw [inside] at grown new
    refine ⟨fresh ++ [.pair p],by simp [split],?_,?_⟩
    · rw [grown]
      ext cell
      simp only [Finset.mem_union,Finset.mem_insert,List.mem_toFinset,List.mem_append,List.mem_singleton]
      tauto
    · intro cell member
      rcases List.mem_append.mp member with later | this
      · exact fun old => new cell later (Finset.mem_insert_of_mem old)
      · rw [List.mem_singleton.mp this]
        exact unseen
  | case5 _ _ entered other page _ _ =>
    obtain ⟨middle,last,done⟩ := Option.bind_eq_some_iff.mp written
    cases done
    exact ⟨[],by simp [restores last,Page.put]⟩

theorem printList_path {limit : Nat} (written : s.printList write limit v page = some after) :
    after.path = page.path := by
  obtain ⟨⟨entered,middle⟩,spine,done⟩ := Option.bind_eq_some_iff.mp written
  obtain ⟨fresh,all,grown,new⟩ := printSpine_path restores spine
  cases done
  rw [List.append_nil] at all
  rw [all]
  exact Page.leave_path grown new

end Restoring

theorem print_path {fuel : Nat} (written : s.print fuel v page = some after) :
    after.path = page.path := by
  induction fuel generalizing v page after with
  | zero => contradiction
  | succ fuel ih =>
    cases v with
    | pair p => exact printList_path ih written
    | vector i =>
      rw [print] at written
      split at written
      · cases written
        rfl
      · rename_i unseen
        obtain ⟨middle,items,done⟩ := Option.bind_eq_some_iff.mp written
        have inside : middle.path = insert (.vector i) page.path := printItems_path ih items
        cases done
        refine Page.leave_path ?_ (by simpa using unseen)
        rw [Page.put,inside]
        ext cell
        simp [or_comm]
    | unspecified | nil | boolean | char | string | symbol | number | closure | transformer
    | delayed | primitive | form => cases written; rfl

/-! More fuel changes no answer. -/

section Fuel

variable {write more : Value → Page → Option Page}
  (agree : ∀ {v page after}, write v page = some after → more v page = some after)
include agree

theorem printItems_more {first : Bool} {items : List Value}
    (written : printItems write first items page = some after) :
    printItems more first items page = some after := by
  induction items generalizing first page with
  | nil => exact written
  | cons item items ih =>
    obtain ⟨middle,one,rest⟩ := Option.bind_eq_some_iff.mp written
    exact Option.bind_eq_some_iff.mpr ⟨middle,agree one,ih rest⟩

theorem printSpine_more {limit : Nat} {first : Bool} {entered all : List Cell}
    (written : s.printSpine write limit first entered v page = some (all,after)) :
    s.printSpine more (limit + 1) first entered v page = some (all,after) := by
  fun_induction printSpine write s limit first entered v page with
  | case1 => contradiction
  | case2 => exact written
  | case3 limit first entered p page seen => rw [printSpine,if_pos seen,written]
  | case4 limit first entered p page unseen ih =>
    obtain ⟨middle,head,rest⟩ := Option.bind_eq_some_iff.mp written
    rw [printSpine,if_neg unseen]
    exact Option.bind_eq_some_iff.mpr ⟨middle,agree head,ih middle rest⟩
  | case5 _ _ entered other page notNil notPair =>
    obtain ⟨middle,last,done⟩ := Option.bind_eq_some_iff.mp written
    rw [printSpine]
    · exact Option.bind_eq_some_iff.mpr ⟨middle,agree last,done⟩
    · exact notNil
    · exact notPair

end Fuel

theorem print_more {fuel : Nat} (written : s.print fuel v page = some after) :
    s.print (fuel + 1) v page = some after := by
  induction fuel generalizing v page after with
  | zero => contradiction
  | succ fuel ih =>
    cases v with
    | pair p =>
      obtain ⟨⟨all,middle⟩,spine,done⟩ := Option.bind_eq_some_iff.mp written
      exact Option.bind_eq_some_iff.mpr ⟨_,printSpine_more ih spine,done⟩
    | vector i =>
      rw [print] at written ⊢
      split at written
      · rename_i seen
        rwa [if_pos seen]
      · rename_i unseen
        obtain ⟨middle,items,done⟩ := Option.bind_eq_some_iff.mp written
        rw [if_neg unseen]
        exact Option.bind_eq_some_iff.mpr ⟨middle,printItems_more ih items,done⟩
    | unspecified | nil | boolean | char | string | symbol | number | closure | transformer
    | delayed | primitive | form => exact written

theorem print_of_le {fuel enough : Nat} (written : s.print enough v page = some after)
    (le : enough ≤ fuel) : s.print fuel v page = some after := by
  induction le with
  | refl => exact written
  | step _ ih => exact print_more ih

/-! What is written, and what is met. -/

/-- The record of a walk's coming to a cell. -/
def Visit.of (trail : List Cell) (cell : Cell) : Visit := ⟨cell,trail.toFinset,decide (cell ∈ trail)⟩

/-- A walk on from `v`, with `path` behind it, comes to a cell and is recorded as `visit`. -/
def Met (s : Store) (path : List Cell) (v : Value) (visit : Visit) : Prop :=
  ∃ trail cell, ReflTransGen s.Descends (path,v) (trail,Cell.value cell) ∧ visit = .of trail cell

theorem Cell.value_injective {first second : Cell} (same : first.value = second.value) :
    first = second := by
  cases first <;> cases second <;> cases same <;> rfl

theorem not_met_atom (atom : v.isCell = false) (visit : Visit) : ¬s.Met path v visit := by
  rintro ⟨trail,cell,walk,-⟩
  rcases ReflTransGen.cases_head walk with same | ⟨next,step,-⟩
  · obtain ⟨rfl,rfl⟩ := Prod.mk.inj same
    cases cell <;> contradiction
  · cases step with
    | @step _ cell => cases cell <;> contradiction

theorem met_cell {cell : Cell} {visit : Visit} : s.Met path cell.value visit ↔
    visit = .of path cell ∨ cell ∉ path ∧ ∃ w, s.Inside cell.value w ∧ s.Met (cell :: path) w visit := by
  constructor
  · rintro ⟨trail,other,walk,recorded⟩
    rcases ReflTransGen.cases_head walk with same | ⟨next,step,rest⟩
    · obtain ⟨rfl,here⟩ := Prod.mk.inj same
      rw [Cell.value_injective here]
      exact .inl recorded
    · generalize start : cell.value = v at step
      cases step with
      | step fresh inside =>
        cases Cell.value_injective start
        exact .inr ⟨fresh,_,inside,trail,other,rest,recorded⟩
  · rintro (rfl | ⟨fresh,w,inside,trail,other,walk,recorded⟩)
    · exact ⟨path,cell,.refl,rfl⟩
    · exact ⟨trail,other,.head (.step fresh inside) walk,recorded⟩

theorem met_seen {cell : Cell} {visit : Visit} (seen : cell ∈ path) :
    s.Met path cell.value visit ↔ visit = .of path cell := by
  simp [met_cell,seen]

theorem met_pair {p : PairId} {visit : Visit} (unseen : .pair p ∉ path) :
    s.Met path (.pair p) visit ↔ visit = .of path (.pair p) ∨
      s.Met (.pair p :: path) (s.head p) visit ∨ s.Met (.pair p :: path) (s.tail p) visit := by
  have unfolded := @met_cell s path (.pair p) visit
  rw [Cell.value] at unfolded
  rw [unfolded]
  constructor
  · rintro (here | ⟨-,w,inside,met⟩)
    · exact .inl here
    · cases inside with
      | head => exact .inr (.inl met)
      | tail => exact .inr (.inr met)
  · rintro (here | head | tail)
    · exact .inl here
    · exact .inr ⟨unseen,_,.head p,head⟩
    · exact .inr ⟨unseen,_,.tail p,tail⟩

theorem met_vector {i : VectorId} {visit : Visit} (unseen : .vector i ∉ path) :
    s.Met path (.vector i) visit ↔ visit = .of path (.vector i) ∨
      ∃ w ∈ (s.items i).toList, s.Met (.vector i :: path) w visit := by
  have unfolded := @met_cell s path (.vector i) visit
  rw [Cell.value] at unfolded
  rw [unfolded]
  constructor
  · rintro (here | ⟨-,w,inside,met⟩)
    · exact .inl here
    · cases inside with
      | item member => exact .inr ⟨w,Array.mem_toList_iff.mpr member,met⟩
  · rintro (here | ⟨w,member,met⟩)
    · exact .inl here
    · exact .inr ⟨unseen,w,.item (Array.mem_toList_iff.mp member),met⟩

/-- What writing adds to a page: a text, and the visits of `met`. -/
structure Adds (page after : Page) (text : String) (met : Visit → Prop) : Prop where
  text : after.text = page.text ++ text
  visits : ∀ visit, visit ∈ after.visits ↔ visit ∈ page.visits ∨ met visit

/-- The cells of `path` are different cells of the store, and so is `v` if it is a cell. -/
structure Onward (s : Store) (path : List Cell) (v : Value) : Prop where
  nodup : path.Nodup
  present : ∀ cell ∈ path, cell.Present s
  has : s.Has v

theorem Onward.step (cell : Cell) (heap : s.Closed) (onward : s.Onward path cell.value)
    (unseen : cell ∉ path) (inside : s.Inside cell.value w) : s.Onward (cell :: path) w :=
  ⟨List.nodup_cons.mpr ⟨unseen,onward.nodup⟩,
    List.forall_mem_cons.mpr ⟨has_cell.mp onward.has,onward.present⟩,heap _ _ onward.has inside⟩

/-- `write` writes what is reached by a path that leaves no more than `room` cells to go into. -/
def Writes (s : Store) (write : Value → Page → Option Page) (room : Nat) : Prop :=
  ∀ {path v page}, s.Onward path v → s.cellCount ≤ path.length + room → page.path = path.toFinset →
    ∃ after, write v page = some after ∧ after.path = page.path ∧
      Adds page after (s.write (room + 1) path .alone v) (s.Met path v)

/-- A cell that is not on the path leaves room for itself. -/
theorem Onward.room (cell : Cell) {room : Nat} (onward : s.Onward path cell.value)
    (unseen : cell ∉ path) (enough : s.cellCount ≤ path.length + room) :
    ∃ less, room = less + 1 ∧ s.cellCount ≤ (cell :: path).length + less := by
  have cells : ∀ other ∈ cell :: path, other.Present s :=
    List.forall_mem_cons.mpr ⟨has_cell.mp onward.has,onward.present⟩
  have bound := Cell.length_le (List.nodup_cons.mpr ⟨unseen,onward.nodup⟩) cells
  rw [List.length_cons] at bound
  exact ⟨room - 1,by omega,by rw [List.length_cons]; omega⟩

/-- Texts with a blank before each. -/
def blanked (texts : List String) : String := String.join (texts.map (" " ++ ·))

theorem intercalate_blank (text : String) (texts : List String) :
    " ".intercalate (text :: texts) = text ++ blanked texts := by
  induction texts generalizing text with
  | nil => simp [blanked]
  | cons next texts ih =>
    rw [String.intercalate_cons_cons,ih]
    simp [blanked,String.append_assoc]

section Writing

variable {write : Value → Page → Option Page} {room : Nat}

theorem Writes.items (writes : s.Writes write room) {items : List Value}
    (onward : ∀ w ∈ items, s.Onward path w) (enough : s.cellCount ≤ path.length + room)
    (on : page.path = path.toFinset) (first : Bool) :
    ∃ after, printItems write first items page = some after ∧
      Adds page after ((if first then " ".intercalate else blanked)
        (items.map (s.write (room + 1) path .alone))) fun visit => ∃ w ∈ items, s.Met path w visit := by
  induction items generalizing page first with
  | nil => cases first <;> exact ⟨page,rfl,by simp [blanked],by simp⟩
  | cons item items ih =>
    obtain ⟨here,others⟩ := List.forall_mem_cons.mp onward
    obtain ⟨middle,one,same,added⟩ := writes here enough
      (show (page.put (if first then "" else " ")).path = path.toFinset from on)
    obtain ⟨after,rest,more⟩ := ih others (same.trans on) false
    refine ⟨after,?_,?_,?_⟩
    · rw [printItems,one]
      exact rest
    · rw [more.text,added.text,List.map_cons]
      cases first with
      | true => simp [intercalate_blank,Page.put,String.append_assoc]
      | false => simp [blanked,Page.put,String.append_assoc]
    · intro visit
      rw [more.visits,added.visits]
      simp [Page.put,or_assoc]

theorem Adds.mark {cell : Cell} {ellipsis : String} (on : page.path = path.toFinset)
    (seen : cell ∈ path) : Adds page (page.mark cell ellipsis) ellipsis (s.Met path cell.value) := by
  refine ⟨rfl,?_⟩
  intro visit
  rw [met_seen seen,Page.mark,List.mem_cons,Visit.of,on,decide_eq_true seen]
  exact or_comm

/-- A step along a list: the mark for a cell that is on the path, else its head and then its tail. -/
theorem Writes.along (heap : s.Closed) (writes : ∀ less < room, s.Writes write less) {p : PairId}
    (onward : s.Onward path (.pair p)) (enough : s.cellCount ≤ path.length + room)
    (on : page.path = path.toFinset) {limit : Nat} {entered : List Cell} (place : Place)
    (further : ∀ {less : Nat} {page : Page}, less < room → s.Onward (.pair p :: path) (s.tail p) →
      s.cellCount ≤ (.pair p :: path : List Cell).length + less →
      page.path = (.pair p :: path : List Cell).toFinset →
      ∃ all after, s.printSpine write limit false (.pair p :: entered) (s.tail p) page =
        some (all,after) ∧ Adds page after (s.write (less + 1) (.pair p :: path) .tail (s.tail p))
          (s.Met (.pair p :: path) (s.tail p))) :
    ∃ all after,
      s.printSpine write (limit + 1) (place = .alone) entered (.pair p) page = some (all,after) ∧
      Adds page after (if .pair p ∈ path then " ..." else
        place.separator ++ s.write room (.pair p :: path) .alone (s.head p) ++
        s.write room (.pair p :: path) .tail (s.tail p)) (s.Met path (.pair p)) := by
  by_cases seen : .pair p ∈ path
  · refine ⟨entered,page.mark (.pair p) " ...",?_,?_⟩
    · rw [printSpine,if_pos (by rwa [on,List.mem_toFinset])]
    · rw [if_pos seen]
      exact Adds.mark on seen
  · obtain ⟨less,rfl,bound⟩ := Onward.room (.pair p) onward seen enough
    have entering : ((page.enter (.pair p)).put place.separator).path =
        (.pair p :: path : List Cell).toFinset := by
      rw [Page.put,Page.enter,on,List.toFinset_cons]
    have blank : (if (decide (place = .alone)) = true then "" else " ") = place.separator := by
      cases place <;> rfl
    obtain ⟨middle,head,same,added⟩ := writes less (Nat.lt_succ_self _)
      (Onward.step (.pair p) heap onward seen (.head p)) bound entering
    obtain ⟨all,after,tail,more⟩ := further (Nat.lt_succ_self _)
      (Onward.step (.pair p) heap onward seen (.tail p)) bound (same.trans entering)
    refine ⟨all,after,?_,?_,?_⟩
    · rw [printSpine,if_neg (by rwa [on,List.mem_toFinset]),blank,head]
      exact tail
    · rw [more.text,added.text,if_neg seen]
      simp only [Page.put,Page.enter,String.append_assoc]
    · intro visit
      rw [more.visits,added.visits,met_pair seen]
      simp only [Page.put,Page.enter,List.mem_cons,Visit.of,on,decide_eq_false seen]
      tauto

theorem write_dotted {fuel : Nat} (notPair : ∀ p, v ≠ .pair p) (notNil : v ≠ .nil) :
    s.write (fuel + 1) path .tail v = " . " ++ s.write (fuel + 1) path .alone v := by
  cases v <;> first | rfl | contradiction | exact (notPair _ rfl).elim

theorem printSpine_ending {limit : Nat} {first : Bool} {entered : List Cell}
    (notPair : ∀ p, v ≠ .pair p) (notNil : v ≠ .nil) (written : write v (page.put " . ") = some after) :
    s.printSpine write (limit + 1) first entered v page = some (entered,after) := by
  rw [printSpine,written]
  · rfl
  · exact notNil
  · exact notPair

theorem Writes.spine (heap : s.Closed) {limit : Nat} (writes : ∀ less < limit, s.Writes write less)
    (onward : s.Onward path v) (enough : s.cellCount ≤ path.length + room)
    (on : page.path = path.toFinset) (long : room < limit) {entered : List Cell} :
    ∃ all after, s.printSpine write limit false entered v page = some (all,after) ∧
      Adds page after (s.write (room + 1) path .tail v) (s.Met path v) := by
  induction limit generalizing room path v page entered with
  | zero => contradiction
  | succ limit ih =>
    by_cases isPair : ∃ p, v = .pair p
    · obtain ⟨p,rfl⟩ := isPair
      rw [Store.write]
      refine Writes.along heap (fun less lt => writes less (by omega)) onward enough on .tail ?_
      intro less page lt tail bound on
      exact ih (fun less lt => writes less (by omega)) tail bound on (by omega)
    · by_cases isNil : v = .nil
      · subst isNil
        refine ⟨entered,page,rfl,by simp [Store.write],?_⟩
        intro visit
        simp [show ¬s.Met path .nil visit from not_met_atom rfl visit]
      · have notPair : ∀ p, v ≠ .pair p := fun p same => isPair ⟨p,same⟩
        obtain ⟨after,written,-,added⟩ := writes room long onward enough
          (show (page.put " . ").path = path.toFinset from on)
        refine ⟨entered,after,printSpine_ending notPair isNil written,?_,added.visits⟩
        rw [added.text,write_dotted notPair isNil]
        simp only [Page.put,String.append_assoc]

theorem Writes.list (heap : s.Closed) {limit : Nat} (writes : ∀ less < limit, s.Writes write less)
    {p : PairId} (onward : s.Onward path (.pair p)) (enough : s.cellCount ≤ path.length + room)
    (on : page.path = path.toFinset) (long : room ≤ limit) :
    ∃ after, s.printList write (limit + 1) (.pair p) page = some after ∧
      Adds page after (s.write (room + 1) path .alone (.pair p)) (s.Met path (.pair p)) := by
  have opened : (page.put "(").path = path.toFinset := on
  obtain ⟨all,after,spine,added⟩ := Writes.along heap (fun less lt => writes less (by omega)) onward
    enough opened .alone fun lt tail bound on => Writes.spine heap writes tail bound on (by omega)
  refine ⟨(after.leave all).put ")",?_,?_,added.visits⟩
  · exact Option.bind_eq_some_iff.mpr ⟨_,spine,rfl⟩
  · rw [Store.write]
    simp only [Page.put,Page.leave,added.text,Place.enclosed,String.append_assoc]

theorem Writes.vector (heap : s.Closed) (writes : ∀ less < room, s.Writes write less) {i : VectorId}
    (onward : s.Onward path (.vector i)) (unseen : .vector i ∉ path)
    (enough : s.cellCount ≤ path.length + room) (on : page.path = path.toFinset) :
    ∃ after, printItems write true (s.items i).toList ((page.enter (.vector i)).put "#(") =
      some after ∧ Adds page (after.put ")") (s.write (room + 1) path .alone (.vector i))
        (s.Met path (.vector i)) := by
  obtain ⟨less,rfl,bound⟩ := Onward.room (.vector i) onward unseen enough
  have entering : ((page.enter (.vector i)).put "#(").path =
      (.vector i :: path : List Cell).toFinset := by
    rw [Page.put,Page.enter,on,List.toFinset_cons]
  have down : ∀ w ∈ (s.items i).toList, s.Onward (.vector i :: path) w := fun w member =>
    Onward.step (.vector i) heap onward unseen (.item (Array.mem_toList_iff.mp member))
  obtain ⟨after,items,added⟩ := Writes.items (writes less (Nat.lt_succ_self _)) down bound entering true
  refine ⟨after,items,?_,?_⟩
  · rw [Store.write,if_neg unseen]
    simp only [Page.put,added.text,Page.enter,Place.dotted,String.append_assoc,if_true]
  · intro visit
    rw [Page.put,added.visits,met_vector unseen]
    simp only [Page.put,Page.enter,List.mem_cons,Visit.of,on,decide_eq_false unseen]
    tauto

end Writing

theorem print_atom {fuel room : Nat} (atom : v.isCell = false) :
    ∃ after, s.print (fuel + 1) v page = some after ∧ after.path = page.path ∧
      Adds page after (s.write (room + 1) path .alone v) (s.Met path v) := by
  refine ⟨page.put v.atomText,?_,rfl,?_,?_⟩
  · cases v <;> first | rfl | contradiction
  · cases v <;> first | rfl | contradiction
  · intro visit
    simp [not_met_atom atom,Page.put]

/-- With a little more fuel than there are cells left to go into, everything is written. -/
theorem print_writes (heap : s.Closed) {fuel room : Nat} (enough : room + 2 ≤ fuel) :
    s.Writes (s.print fuel) room := by
  induction fuel generalizing room with
  | zero => omega
  | succ fuel ih =>
    intro path v page onward bound on
    obtain ⟨limit,rfl⟩ : ∃ limit, fuel = limit + 1 := ⟨fuel - 1,by omega⟩
    cases v with
    | pair p =>
      obtain ⟨after,written,added⟩ := Writes.list heap (fun less lt => ih (by omega)) onward bound on
        (show room ≤ limit by omega)
      exact ⟨after,written,printList_path print_path written,added⟩
    | vector i =>
      by_cases seen : .vector i ∈ path
      · refine ⟨page.mark (.vector i) "...",?_,rfl,?_⟩
        · rw [print,if_pos (by rwa [on,List.mem_toFinset])]
        · rw [Store.write,if_pos seen]
          exact Adds.mark on seen
      · obtain ⟨middle,items,added⟩ :=
          Writes.vector heap (fun less lt => ih (by omega)) onward seen bound on
        have written : s.print (limit + 2) (.vector i) page =
            some ((middle.put ")").leave [.vector i]) := by
          rw [print,if_neg (by rwa [on,List.mem_toFinset]),items]
          rfl
        exact ⟨_,written,print_path written,added.text,added.visits⟩
    | unspecified | nil | boolean | char | string | symbol | number | closure | transformer
    | delayed | primitive | form => exact print_atom rfl

/-- Printing ends on every store, cyclic or not. Each call leaves the set of the cells being written as
it found it; the text is that of the value; a cell is met with just the cells on the way to it in the
set, and is marked if and only if it is one of them; and something is marked if and only if a cycle can
be reached. -/
theorem print_marks_cycles (heap : s.Closed) (present : s.Has v) :
    (∀ {fuel w page after}, s.print fuel w page = some after → after.path = page.path) ∧
    (∀ {fuel limit w page after}, s.printList (s.print fuel) limit w page = some after →
      after.path = page.path) ∧
    ∃ page, (∀ fuel, s.cellCount + 2 ≤ fuel → s.print fuel v .blank = some page) ∧
      page.text = s.text v ∧
      (∀ visit, visit ∈ page.visits ↔ ∃ trail, ∃ cell : Cell, s.Trail v trail cell.value ∧
        visit = ⟨cell,trail.toFinset,decide (cell ∈ trail)⟩) ∧
      ((∃ visit ∈ page.visits, visit.marked = true) ↔ s.CycleFrom v) := by
  have start : s.Onward [] v := ⟨.nil,by simp,present⟩
  obtain ⟨page,written,-,added⟩ := print_writes heap (Nat.le_refl _) start (Nat.le_add_left ..)
    (show Page.blank.path = [].toFinset from rfl)
  have visits (visit : Visit) : visit ∈ page.visits ↔ s.Met [] v visit := by
    rw [added.visits,Page.blank]
    simp
  refine ⟨print_path,printList_path print_path,page,fun fuel => print_of_le written,?_,visits,?_⟩
  · rw [added.text,Page.blank,String.empty_append,Store.text]
  · rw [cycleFrom_iff]
    constructor
    · rintro ⟨visit,member,marked⟩
      obtain ⟨trail,cell,walk,rfl⟩ := (visits visit).mp member
      exact ⟨trail,cell,walk,of_decide_eq_true marked⟩
    · rintro ⟨trail,cell,walk,member⟩
      exact ⟨.of trail cell,(visits _).mpr ⟨trail,cell,walk,rfl⟩,decide_eq_true member⟩

/-- A pair whose tail is a vector that holds the pair. -/
def knot : Store :=
  { empty with
    pairs := #[⟨.boolean true,.vector ⟨0⟩⟩]
    vectors := #[#[.pair ⟨0⟩]] }

theorem print_marks_cycles_knot : knot.Closed ∧ knot.Has (.pair ⟨0⟩) ∧ knot.CycleFrom (.pair ⟨0⟩) ∧
    ∃ page, knot.print 4 (.pair ⟨0⟩) .blank = some page ∧ page.text = "(#t . #(( ...)))" ∧
      ∃ visit ∈ page.visits, visit.marked = true := by
  have heap : knot.Closed := by
    refine closed_of_cells ?_ ?_
    · simpa [knot,has_vector] using has_atom rfl
    · simp [knot,has_pair]
  have present : knot.Has (.pair ⟨0⟩) := has_pair.mpr (by decide)
  have cycle : knot.CycleFrom (.pair ⟨0⟩) :=
    ⟨.pair ⟨0⟩,.refl,.tail (.single (.tail ⟨0⟩)) (.item (by simp [knot,items]))⟩
  obtain ⟨-,-,page,printed,text,-,marked⟩ := print_marks_cycles heap present
  have shown : knot.text (.pair ⟨0⟩) = "(#t . #(( ...)))" := by cbv
  exact ⟨heap,present,cycle,page,printed 4 (by decide),text.trans shown,marked.mpr cycle⟩

end MiniScheme.Store
