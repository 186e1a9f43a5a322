import MiniScheme.Proofs.Store.Data

/-! Names in frames and lists in the store: what a definition does to the look-up of names, and
what is found along a list that was just made. -/
namespace MiniScheme

namespace Frame

theorem lookup_cons (name key : String) (value : Value) (rest : List (String × Value)) :
    ((name,value) :: rest).lookup key = if key = name then some value else rest.lookup key := by
  by_cases same : key = name
  · rw [same,List.lookup_cons_self,if_pos rfl]
  · rw [List.lookup_cons,beq_false_of_ne same,if_neg same]

theorem lookup_insert (name key : String) (value : Value) (bindings : List (String × Value)) :
    (insert name value bindings).lookup key =
      if key = name then some value else bindings.lookup key := by
  induction bindings with
  | nil => rw [insert,lookup_cons]
  | cons entry rest ih =>
    obtain ⟨old,found⟩ := entry
    by_cases here : old = name
    · subst here
      by_cases same : key = old <;> simp [insert,lookup_cons,same]
    · rw [insert,if_neg here,lookup_cons,ih,lookup_cons]
      by_cases same : key = old
      · have apart : key ≠ name := same ▸ here
        rw [if_pos same,if_neg apart,if_pos same]
      · rw [if_neg same,if_neg same]

theorem find?_define (f : Frame) (name key : String) (value : Value) :
    (f.define name value).find? key = if key = name then some value else f.find? key :=
  lookup_insert name key value f.bindings

/-- The frame with a number of names bound, one after the other. -/
def defineAll (f : Frame) (bindings : List (String × Value)) : Frame :=
  bindings.foldl (fun f binding => f.define binding.1 binding.2) f

theorem parent_defineAll (f : Frame) (bindings : List (String × Value)) :
    (f.defineAll bindings).parent = f.parent := by
  induction bindings generalizing f with
  | nil => rfl
  | cons binding rest ih => exact ih _

end Frame

namespace Store

variable {s : Store} {f g : FrameId} {name key : String} {value : Value}

theorem frame?_define :
    (s.define f name value).frame? g =
      if g = f then (s.frame? g).map (Frame.define name value) else s.frame? g := by
  obtain ⟨f⟩ := f
  obtain ⟨g⟩ := g
  simp only [frame?,define,Array.getElem?_modify,FrameId.mk.injEq,eq_comm]

theorem binding?_define :
    (s.define f name value).binding? g key =
      if g = f ∧ key = name ∧ (s.frame? f).isSome then some value else s.binding? g key := by
  simp only [binding?,frame?_define]
  by_cases same : g = f
  · subst same
    cases s.frame? g with
    | none => simp
    | some frame => simp [Frame.find?_define]
  · simp [same]

theorem binding?_eq_none (absent : s.frame? f = none) : s.binding? f key = none := by
  simp [binding?,absent]

/-- The chain of a frame starts with the frame. -/
theorem chainWithin_cons {limit : Nat} {frame : Frame} (present : s.frame? f = some frame)
    (room : 0 < limit) : ∃ rest, s.chainWithin limit f = f :: rest := by
  obtain ⟨less,rfl⟩ : ∃ less, limit = less + 1 := ⟨limit - 1,by omega⟩
  simp only [chainWithin,present]
  cases frame.parent with
  | none => exact ⟨[],rfl⟩
  | some parent => exact ⟨_,rfl⟩

/-- A name that a frame binds itself is found there. -/
theorem lookup_of_binding? (bound : s.binding? f key = some value) :
    s.lookup f key = some value := by
  cases present : s.frame? f with
  | none => rw [binding?_eq_none present] at bound; contradiction
  | some frame =>
    obtain ⟨rest,chain⟩ := chainWithin_cons present (Nat.succ_pos f.index)
    rw [lookup,Store.chain,chain,List.findSome?_cons,bound]

theorem binding?_define_self (present : (s.frame? f).isSome) :
    (s.define f name value).binding? f name = some value := by
  simp [binding?_define,present]

theorem isSome_frame?_define : ((s.define f name value).frame? g).isSome = (s.frame? g).isSome := by
  rw [frame?_define]
  split
  · exact Option.isSome_map
  · rfl

/-- The store with a number of names bound in one frame, one after the other. -/
def defineAll (s : Store) (f : FrameId) (bindings : List (String × Value)) : Store :=
  bindings.foldl (fun s binding => s.define f binding.1 binding.2) s

variable {bindings : List (String × Value)}

theorem frame?_defineAll : (s.defineAll f bindings).frame? g =
    if g = f then (s.frame? g).map (Frame.defineAll · bindings) else s.frame? g := by
  induction bindings generalizing s with
  | nil =>
    rw [defineAll,List.foldl_nil]
    split
    · exact Option.map_id'.symm
    · rfl
  | cons binding rest ih =>
    refine ih.trans ?_
    rw [frame?_define]
    split
    · rw [Option.map_map]
      rfl
    · rfl

/-- Definitions touch the frames only, and make none. -/
theorem defineAll_eq (s : Store) (f : FrameId) (bindings : List (String × Value)) :
    ∃ frames, frames.size = s.frames.size ∧ s.defineAll f bindings = { s with frames } := by
  induction bindings generalizing s with
  | nil => exact ⟨s.frames,rfl,rfl⟩
  | cons binding rest ih =>
    obtain ⟨frames,size,same⟩ := ih (s.define f binding.1 binding.2)
    exact ⟨frames,size.trans (by simp [define]),same⟩

theorem binding?_defineAll_of_notMem (other : key ∉ bindings.map Prod.fst) :
    (s.defineAll f bindings).binding? f key = s.binding? f key := by
  induction bindings generalizing s with
  | nil => rfl
  | cons binding rest ih =>
    simp only [List.map_cons,List.mem_cons,not_or] at other
    have here : (s.define f binding.1 binding.2).binding? f key = s.binding? f key := by
      simp [binding?_define,other.1]
    exact (ih other.2).trans here

/-- Names that differ are all bound in the end. -/
theorem binding?_defineAll (present : (s.frame? f).isSome)
    (distinct : (bindings.map Prod.fst).Nodup) {binding : String × Value}
    (mem : binding ∈ bindings) :
    (s.defineAll f bindings).binding? f binding.1 = some binding.2 := by
  induction bindings generalizing s with
  | nil => contradiction
  | cons first rest ih =>
    rw [List.map_cons,List.nodup_cons] at distinct
    cases mem with
    | head => exact (binding?_defineAll_of_notMem distinct.1).trans (binding?_define_self present)
    | tail _ mem => exact ih (isSome_frame?_define.trans present) distinct.2 mem

/-- From a fresh child, the names that its parent binds are found there. -/
theorem lookup_child (bound : s.binding? f key = some value) :
    (s.newFrame (some f)).2.lookup (s.newFrame (some f)).1 key = some value := by
  have present : (s.frame? f).isSome := by
    cases found : s.frame? f with
    | none => rw [binding?_eq_none found] at bound; contradiction
    | some frame => rfl
  have old : f.index < s.frames.size := by
    simpa [frame?] using present
  have child : (s.newFrame (some f)).2.frame? ⟨s.frames.size⟩ = some ⟨some f,[]⟩ := by
    simp [newFrame,frame?]
  have parent : (s.newFrame (some f)).2.frame? f = s.frame? f := by
    simp [newFrame,frame?,Array.getElem?_push_lt old,Array.getElem?_eq_getElem old]
  obtain ⟨frame,here⟩ := Option.isSome_iff_exists.mp present
  obtain ⟨rest,chain⟩ := chainWithin_cons (parent.trans here) (Nat.lt_of_le_of_lt (Nat.zero_le _) old)
  have empty : (s.newFrame (some f)).2.binding? ⟨s.frames.size⟩ key = none := by
    simp [binding?,child,Frame.find?]
  have found : (s.newFrame (some f)).2.binding? f key = some value := by
    rw [binding?,parent]
    exact bound
  change (s.newFrame (some f)).2.lookup ⟨s.frames.size⟩ key = some value
  rw [lookup,Store.chain,chainWithin,child]
  simp only [chain,List.findSome?_cons,empty,found]

/-- A proper list is found unchanged wherever its pairs are. -/
theorem walk_extends {next : Store} (extension : s.Extends next) {limit : Nat} {list : Value}
    {values : List Value} (proper : s.walk limit list = (values,.nil)) :
    next.walk limit list = (values,.nil) := by
  induction limit generalizing list values with
  | zero => exact proper
  | succ limit ih =>
    cases list with
    | pair p =>
      cases cell : s.pair? p with
      | none =>
        -- behind a pair that does not exist stands no empty list
        have last : (s.walk limit .unspecified).2 = .nil := by
          simpa [walk,tail,cell] using congrArg Prod.snd proper
        cases limit <;> contradiction
      | some pair =>
        have same := extension.pairs cell
        simp only [walk,head,tail,cell,same,Option.map_some,Option.getD_some,Prod.mk.injEq]
          at proper ⊢
        obtain ⟨rfl,last⟩ := proper
        rw [ih (Prod.ext rfl last)]
        exact ⟨rfl,rfl⟩
    | _ => exact proper

theorem Extends.size {next : Store} (extension : s.Extends next) : s.pairs.size ≤ next.pairs.size := by
  by_contra fewer
  obtain ⟨pair,cell⟩ : ∃ pair, s.pair? ⟨next.pairs.size⟩ = some pair :=
    ⟨_,Array.getElem?_eq_getElem (Nat.lt_of_not_le fewer)⟩
  exact Nat.lt_irrefl _ (pair?_bound (extension.pairs cell))

/-- A proper list ends where it ends, however far one may walk. -/
theorem walk_more {limit more : Nat} {list : Value} {values : List Value} (le : limit ≤ more)
    (proper : s.walk limit list = (values,.nil)) : s.walk more list = (values,.nil) := by
  induction limit generalizing more list values with
  | zero =>
    cases list <;> cases proper
    cases more <;> rfl
  | succ limit ih =>
    obtain ⟨less,rfl⟩ : ∃ less, more = less + 1 := ⟨more - 1,by omega⟩
    cases list with
    | pair p =>
      simp only [walk,Prod.mk.injEq] at proper ⊢
      obtain ⟨rfl,last⟩ := proper
      rw [ih (Nat.le_of_succ_le_succ le) (Prod.ext rfl last)]
      exact ⟨rfl,rfl⟩
    | _ => exact proper

/-- Making a list touches the pairs only. -/
theorem list_eq (values : List Value) :
    (s.list values).2 = { s with pairs := (s.list values).2.pairs } := by
  induction values with
  | nil => rfl
  | cons v values ih => exact congrArg (fun t : Store => (t.cons v (s.list values).1).2) ih

theorem list_frames (values : List Value) : (s.list values).2.frames = s.frames := by rw [list_eq]

theorem list_extends (values : List Value) : s.Extends (s.list values).2 := by
  induction values with
  | nil => exact .refl s
  | cons v values ih => exact ih.trans (cons_extends ..)

theorem list_size (values : List Value) :
    (s.list values).2.pairs.size = s.pairs.size + values.length := by
  induction values with
  | nil => rfl
  | cons v values ih =>
    change ((s.list values).2.pairs.push _).size = _
    rw [Array.size_push,ih,List.length_cons,Nat.add_assoc]

/-- Along a list that was just made stand its values. -/
theorem walk_list (values : List Value) {limit : Nat} (enough : values.length ≤ limit) :
    (s.list values).2.walk limit (s.list values).1 = (values,.nil) := by
  induction values generalizing limit with
  | nil => cases limit <;> rfl
  | cons v values ih =>
    obtain ⟨less,rfl⟩ : ∃ less, limit = less + 1 := ⟨limit - 1,by simp at enough; omega⟩
    have cell := (s.list values).2.cons_pair? v (s.list values).1
    have rest := walk_extends ((s.list values).2.cons_extends v (s.list values).1)
      (ih (Nat.le_of_succ_le_succ enough))
    change ((s.list values).2.cons v (s.list values).1).2.walk (less + 1)
      (.pair ⟨(s.list values).2.pairs.size⟩) = _
    simp only [walk,head,tail,cell,rest,Option.map_some,Option.getD_some]

end Store
end MiniScheme
