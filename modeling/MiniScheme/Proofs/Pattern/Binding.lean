import Mathlib.Data.List.Find
import MiniScheme.Proofs.Pattern.Expansion
import MiniScheme.Proofs.Store.Forest

/-! Binding after matching. Every item of a pattern has a place: the indices of the list items that
it lies in, and its own index there. If a pattern matches, each of its items finds its operand at the
place, and each of its variables is bound to what stands there. -/
namespace MiniScheme

/-- The operands of the list that a path of indices leads to. -/
def Operand.at? (ops : List Operand) : List Nat → Option (List Operand)
  | [] => some ops
  | index :: path => do at? (← (← ops[index]?).children?) path

theorem Operand.at?_concat {ops parts inner : List Operand} {op : Operand} {path : List Nat}
    {index : Nat} (outer : at? ops path = some parts) (found : parts[index]? = some op)
    (children : op.children? = some inner) : at? ops (path ++ [index]) = some inner := by
  induction path generalizing ops with
  | nil =>
    cases outer
    rw [List.nil_append,at?,found]
    simp [at?,children]
  | cons first path ih =>
    simp only [at?,Option.bind_eq_bind,Option.bind_eq_some_iff] at outer
    obtain ⟨step,here,below,inside,rest⟩ := outer
    rw [List.cons_append,at?]
    simp only [Option.bind_eq_bind,Option.bind_eq_some_iff]
    exact ⟨step,here,below,inside,ih rest⟩

/-- An item of a pattern and where it stands. -/
structure Slot where
  path : List Nat
  index : Nat
  item : PatternItem

namespace Slot

/-- The name of a variable. -/
def name? (slot : Slot) : Option String :=
  match slot.item with
  | .atom name | .vararg name => some name
  | .keyword _ | .list _ => none

/-- The place lies within the operands: there is an operand for the item, with parts if the item is a
list. A vararg may begin right behind the last operand. -/
def InRange (ops : List Operand) (slot : Slot) : Prop :=
  ∃ parts, Operand.at? ops slot.path = some parts ∧
    match slot.item with
    | .atom _ | .keyword _ => slot.index < parts.length
    | .vararg _ => slot.index ≤ parts.length
    | .list _ => ∃ op, parts[slot.index]? = some op ∧ op.children?.isSome

/-- What a variable stands for: the operand at its place, or all operands from its place on. -/
def captured? (ops : List Operand) (slot : Slot) : Option Capture := do
  let parts ← Operand.at? ops slot.path
  match slot.item with
  | .atom _ => return .one (← parts[slot.index]?)
  | .vararg _ => if slot.index ≤ parts.length then some (.many (parts.drop slot.index)) else none
  | .keyword _ | .list _ => none

/-- The binding of a variable. -/
def bound? (ops : List Operand) (slot : Slot) : Option (String × Capture) := do
  return (← slot.name?,← slot.captured? ops)

variable {ops parts : List Operand} {path : List Nat} {index : Nat}

theorem bound?_atom {op : Operand} (here : Operand.at? ops path = some parts)
    (found : parts[index]? = some op) (name : String) :
    bound? ops ⟨path,index,.atom name⟩ = some (name,.one op) := by
  simp only [bound?,name?,captured?,here,found,Option.bind_eq_bind,Option.bind_some,Option.pure_def]

theorem bound?_vararg (here : Operand.at? ops path = some parts) (within : index ≤ parts.length)
    (name : String) :
    bound? ops ⟨path,index,.vararg name⟩ = some (name,.many (parts.drop index)) := by
  simp only [bound?,name?,captured?,here,within,if_true,Option.bind_eq_bind,Option.bind_some,
    Option.pure_def]

theorem bound?_snd (slot : Slot) : (slot.bound? ops).map Prod.snd = slot.captured? ops := by
  obtain ⟨path,index,item⟩ := slot
  cases item with
  | atom name | vararg name =>
    rw [bound?]
    cases captured? ops _ <;> rfl
  | keyword | list =>
    cases here : Operand.at? ops path <;> simp [bound?,name?,captured?,here]

/-- A variable in range has a binding. -/
theorem InRange.bound? {slot : Slot} (inRange : slot.InRange ops) :
    (slot.bound? ops).map Prod.fst = slot.name? := by
  obtain ⟨path,index,item⟩ := slot
  obtain ⟨parts,here,within⟩ := inRange
  cases item with
  | atom name => rw [bound?_atom here (List.getElem?_eq_getElem within)]; rfl
  | vararg name => rw [bound?_vararg here within]; rfl
  | keyword | list => rfl

end Slot

namespace PatternItem

mutual

/-- The places of an item that stands at `index` in the list at the end of `path`, and of all items
inside it. -/
def slots (path : List Nat) (index : Nat) : PatternItem → List Slot
  | atom name => [⟨path,index,atom name⟩]
  | vararg name => [⟨path,index,vararg name⟩]
  | keyword name => [⟨path,index,keyword name⟩]
  | list sub => ⟨path,index,list sub⟩ :: slotsAll (path ++ [index]) 0 sub

def slotsAll (path : List Nat) (index : Nat) : List PatternItem → List Slot
  | [] => []
  | item :: items => item.slots path index ++ slotsAll path (index + 1) items

end

mutual

/-- In an item that was read, a vararg is the last of its list. -/
def Shaped : PatternItem → Prop
  | list sub => ShapedAll sub
  | atom _ | vararg _ | keyword _ => True

def ShapedAll : List PatternItem → Prop
  | [] => True
  | item :: items => item.Shaped ∧ (item.isVararg = true → items = []) ∧ ShapedAll items

end

theorem ofSymbol_shaped (keywords : List String) (name : String) :
    (ofSymbol keywords name).Shaped ∧ (ofSymbol keywords name).isVararg = false := by
  rw [ofSymbol]
  split <;> exact ⟨trivial,rfl⟩

mutual

theorem ofNode?_shaped {keywords : List String} {item : PatternItem} (n : Node)
    (read : ofNode? keywords n = some item) : item.Shaped ∧ item.isVararg = false := by
  cases n with
  | list nodes pos =>
    simp only [ofNode?,Option.bind_eq_bind,Option.bind_eq_some_iff,Option.pure_def,Option.some.injEq]
      at read
    obtain ⟨sub,inside,rfl⟩ := read
    exact ⟨ofNodes?_shaped nodes inside,rfl⟩
  | _ => contradiction

theorem ofNodes?_shaped {keywords : List String} {pattern : List PatternItem} (ns : List Node)
    (read : ofNodes? keywords ns = some pattern) : ShapedAll pattern := by
  match ns with
  | [] =>
    cases read
    trivial
  | n :: ns =>
    have nested (item : PatternItem) (first : item.Shaped ∧ item.isVararg = false)
        (more : List PatternItem) (rest : ofNodes? keywords ns = some more) :
        ShapedAll (item :: more) := by
      refine ⟨first.1,?_,ofNodes?_shaped ns rest⟩
      rw [first.2]
      exact nofun
    cases n with
    | symbol name pos =>
      rw [ofNodes?] at read
      split at read
      · contradiction
      split at read
      · split at read
        · cases read
          exact ⟨trivial,fun _ => rfl,trivial⟩
        · contradiction
      · simp only [Option.bind_eq_bind,Option.bind_eq_some_iff,Option.pure_def,Option.some.injEq] at read
        obtain ⟨more,rest,rfl⟩ := read
        exact nested _ (ofSymbol_shaped keywords name) more rest
    | string | char | boolean | number | quote | list | dot | sharp =>
      simp only [ofNodes?,Option.bind_eq_bind,Option.bind_eq_some_iff,Option.pure_def,
        Option.some.injEq] at read
      obtain ⟨item,first,more,rest,rfl⟩ := read
      exact nested item (ofNode?_shaped _ first) more rest

end

/-- What the variables among these slots stand for. -/
def entries (ops : List Operand) (slots : List Slot) : List (String × Capture) :=
  slots.filterMap (Slot.bound? ops)

theorem entries_append (ops : List Operand) (first second : List Slot) :
    entries ops (first ++ second) = entries ops first ++ entries ops second :=
  List.filterMap_append

mutual

/-- An item that admits the operand at its place captures what its variables stand for. -/
theorem capture?_slots {all parts : List Operand} {path : List Nat} {index : Nat} {op : Operand}
    (here : Operand.at? all path = some parts) (found : parts[index]? = some op)
    (rest : List Operand) (item : PatternItem) (shaped : item.Shaped) (single : item.isVararg = false)
    (admitted : item.admits op = true) :
    item.capture? (op :: rest) = some (entries all (item.slots path index)) ∧
      ∀ slot ∈ item.slots path index, slot.InRange all := by
  have within : index < parts.length := (List.getElem?_eq_some_iff.mp found).1
  cases item with
  | vararg => contradiction
  | atom name =>
    refine ⟨?_,List.forall_mem_singleton.mpr ⟨parts,here,within⟩⟩
    simp only [capture?,slots,entries,List.filterMap_cons,Slot.bound?_atom here found,List.filterMap_nil]
  | keyword name => exact ⟨rfl,List.forall_mem_singleton.mpr ⟨parts,here,within⟩⟩
  | list sub =>
    rw [admits] at admitted
    cases children : op.children? with
    | none => simp [children] at admitted
    | some inner =>
      simp only [children,Bool.and_eq_true,decide_eq_true_eq] at admitted
      obtain ⟨captured,inRange⟩ := captures?_slots (Operand.at?_concat here found children) sub shaped
        ((Nat.zero_add _).trans_le admitted.1) admitted.2
      refine ⟨?_,?_⟩
      · rw [capture?,children]
        exact captured
      · rintro slot (_ | ⟨_,member⟩)
        · exact ⟨parts,here,op,found,by rw [children]; rfl⟩
        · exact inRange slot member

/-- A pattern that matches finds the operand of each item, and captures what its variables stand
for. -/
theorem captures?_slots {all parts : List Operand} {path : List Nat} {index : Nat}
    (here : Operand.at? all path = some parts) (items : List PatternItem) (shaped : ShapedAll items)
    (enough : index + required items ≤ parts.length)
    (admitted : admitsAll items (parts.drop index) = true) :
    captures? items (parts.drop index) = some (entries all (slotsAll path index items)) ∧
      ∀ slot ∈ slotsAll path index items, slot.InRange all := by
  cases items with
  | nil => exact ⟨rfl,nofun⟩
  | cons item items =>
    obtain ⟨own,last,others⟩ := shaped
    cases single : item.isVararg with
    | true =>
      -- nothing stands behind it
      obtain rfl := last single
      cases item with
      | vararg name =>
        have within : index ≤ parts.length := Nat.le_of_add_right_le enough
        refine ⟨?_,List.forall_mem_singleton.mpr ⟨parts,here,within⟩⟩
        simp [captures?,capture?,slotsAll,slots,entries,Slot.bound?_vararg here within]
      | atom | keyword | list => contradiction
    | false =>
      have more : required (item :: items) = required items + 1 := by
        simp [required,single]
      have within : index < parts.length := by omega
      have suffix : parts.drop index = parts[index] :: parts.drop (index + 1) :=
        List.drop_eq_getElem_cons within
      rw [suffix,admitsAll,Bool.and_eq_true] at admitted
      obtain ⟨first,inRange⟩ := capture?_slots here (List.getElem?_eq_getElem within)
        (parts.drop (index + 1)) item own single admitted.1
      obtain ⟨rest,inRange'⟩ := captures?_slots here items others (by omega) admitted.2
      refine ⟨?_,?_⟩
      · rw [suffix,captures?,first,List.drop_succ_cons,List.drop_zero,rest,slotsAll,entries_append]
        rfl
      · intro slot member
        rw [slotsAll,List.mem_append] at member
        exact member.elim (inRange slot) (inRange' slot)

end

/-- What a variable of a pattern stands for, at the last place where its name occurs. -/
def meaning? (pattern : List PatternItem) (ops : List Operand) (name : String) : Option Capture :=
  ((slotsAll [] 0 pattern).reverse.find? fun slot => slot.name? == some name).bind
    (Slot.captured? ops)

end PatternItem

/-- All that binding leaves as it was, besides names and frames. -/
structure State.Kept (before after : State) : Prop where
  cells : before.store.Extends after.store
  vectors : after.store.vectors = before.store.vectors
  fresh : after.store.fresh = before.store.fresh
  tracers : after.tracers = before.tracers

theorem State.Kept.refl (state : State) : state.Kept state := ⟨.refl _,rfl,rfl,rfl⟩

theorem State.Kept.trans {first second third : State} (left : first.Kept second)
    (right : second.Kept third) : first.Kept third where
  cells := left.cells.trans right.cells
  vectors := right.vectors.trans left.vectors
  fresh := right.fresh.trans left.fresh
  tracers := right.tracers.trans left.tracers

namespace Capture

/-- `capture.Denotes caller s v`: the value is the operand, delayed in the frame of the call, or the
proper list of all operands so delayed. -/
def Denotes (caller : FrameId) (s : Store) : Capture → Value → Prop
  | one op, v => v = op.delay caller
  | many ops, v => s.walk s.pairs.size v = (ops.map (Operand.delay caller),.nil)

variable {caller target : FrameId} {capture : Capture}

theorem Denotes.extend {s t : Store} {v : Value} (denotes : capture.Denotes caller s v)
    (grown : s.Extends t) : capture.Denotes caller t v := by
  cases capture with
  | one op => exact denotes
  | many ops => exact Store.walk_more grown.size (Store.walk_extends grown denotes)

/-- Making the value of a variable adds cells and changes no frame. -/
theorem toValue_denotes (capture : Capture) (caller : FrameId) (state : State) :
    ∃ v next, capture.toValue caller state = .ok v next ∧ capture.Denotes caller next.store v ∧
      next.store.frames = state.store.frames ∧ state.Kept next := by
  cases capture with
  | one op => exact ⟨_,state,rfl,rfl,rfl,.refl state⟩
  | many ops =>
    obtain ⟨store,tracers⟩ := state
    refine ⟨_,⟨(store.list (ops.map (Operand.delay caller))).2,tracers⟩,rfl,?_,Store.list_frames _,?_⟩
    · exact Store.walk_list _ (by rw [Store.list_size]; omega)
    · exact ⟨Store.list_extends _,by rw [Store.list_eq],by rw [Store.list_eq],rfl⟩

/-- What a name stands for in the end, if names are bound one after the other. -/
def last? (captures : List (String × Capture)) (name : String) : Option Capture :=
  (captures.reverse.find? fun entry => entry.1 == name).map Prod.snd

theorem last?_cons (name key : String) (capture : Capture) (rest : List (String × Capture)) :
    last? ((key,capture) :: rest) name =
      (last? rest name).or (if key = name then some capture else none) := by
  rw [last?,last?,List.reverse_cons,List.find?_append]
  by_cases same : key = name <;>
    cases rest.reverse.find? fun entry => entry.1 == name <;> simp [same]

/-- `Bound caller target means before after`: the names that mean something have got their values in
the frame `target`, and no other binding is changed, in this frame or any other. -/
structure Bound (caller target : FrameId) (means : String → Option Capture) (before after : State) :
    Prop where
  named {name : String} {capture : Capture} : means name = some capture →
    ∃ v, after.store.binding? target name = some v ∧ capture.Denotes caller after.store v
  others {f : FrameId} {key : String} : f ≠ target ∨ means key = none →
    after.store.binding? f key = before.store.binding? f key
  parents (f : FrameId) : after.store.parent? f = before.store.parent? f
  kept : before.Kept after

/-- Names that mean nothing are found as before. -/
theorem Bound.lookup {means : String → Option Capture} {before after : State}
    (bound : Bound caller target means before after) {key : String} (other : means key = none)
    (f : FrameId) : after.store.lookup f key = before.store.lookup f key :=
  Store.lookup_congr bound.parents (fun _ => bound.others (.inr other)) f

/-- What is bound later counts. -/
theorem Bound.trans {means more : String → Option Capture} {first second third : State}
    (left : Bound caller target means first second) (right : Bound caller target more second third) :
    Bound caller target (fun name => (more name).or (means name)) first third where
  named := by
    intro name capture found
    cases later : more name with
    | some other =>
      rw [later] at found
      cases found
      exact right.named later
    | none =>
      rw [later,Option.none_or] at found
      obtain ⟨v,bound,denotes⟩ := left.named found
      exact ⟨v,(right.others (.inr later)).trans bound,denotes.extend right.kept.cells⟩
  others := by
    intro f key apart
    rw [Option.or_eq_none_iff] at apart
    exact (right.others (apart.imp_right And.left)).trans (left.others (apart.imp_right And.right))
  parents f := (right.parents f).trans (left.parents f)
  kept := left.kept.trans right.kept

/-- One variable is bound. -/
theorem define_bound (name : String) (capture : Capture) {state : State}
    (present : (state.store.frame? target).isSome) (caller : FrameId) :
    ∃ next, (capture.toValue caller >>= Eval.define target name) state = .ok () next ∧
      Bound caller target (fun key => if name = key then some capture else none) state next := by
  obtain ⟨v,made,run,denotes,frames,kept⟩ := toValue_denotes capture caller state
  have frame (f : FrameId) : made.store.frame? f = state.store.frame? f := by
    rw [Store.frame?,Store.frame?,frames]
  let next : State := ⟨made.store.define target name v,made.tracers⟩
  have defined : made.Kept next := ⟨⟨id,id⟩,rfl,rfl,rfl⟩
  refine ⟨next,by simp only [bind,EStateM.bind,run]; rfl,?_,?_,?_,kept.trans defined⟩
  · intro key found means
    split at means
    next same =>
      cases means
      subst same
      exact ⟨v,Store.binding?_define_self (frame target ▸ present),denotes.extend defined.cells⟩
    next => contradiction
  · intro f key apart
    have other : ¬ (f = target ∧ key = name ∧ (made.store.frame? target).isSome) := by
      rintro ⟨rfl,rfl,-⟩
      simp at apart
    rw [Store.binding?_define,if_neg other,Store.binding?,Store.binding?,frame]
  · intro f
    rw [Store.parent?_define,Store.parent?,Store.parent?,frame]

theorem bindAll_bound (captures : List (String × Capture)) {state : State}
    (present : (state.store.frame? target).isSome) (caller : FrameId) :
    ∃ next, bindAll caller target captures state = .ok () next ∧
      Bound caller target (last? captures) state next := by
  induction captures generalizing state with
  | nil => exact ⟨state,rfl,nofun,fun _ => rfl,fun _ => rfl,.refl state⟩
  | cons entry rest ih =>
    obtain ⟨name,capture⟩ := entry
    obtain ⟨middle,first,bound⟩ := define_bound name capture present caller
    have there : (middle.store.frame? target).isSome := by
      have known := congrArg Option.isSome (bound.parents target)
      rw [Store.parent?,Store.parent?,Option.isSome_map,Option.isSome_map] at known
      exact known.trans present
    obtain ⟨next,run,more⟩ := ih there
    refine ⟨next,?_,?_⟩
    · have whole : bindAll caller target ((name,capture) :: rest) =
          (capture.toValue caller >>= Eval.define target name) >>= fun _ => bindAll caller target rest :=
        (bind_assoc ..).symm
      rw [whole]
      change EStateM.bind _ _ state = _
      rw [EStateM.bind,first]
      exact run
    · rw [funext (last?_cons · name capture rest)]
      exact bound.trans more

/-- Binding ends in one state only. -/
theorem bound_of_bindAll {captures : List (String × Capture)} {state after : State}
    (binds : bindAll caller target captures state = .ok () after)
    (present : (state.store.frame? target).isSome) :
    Bound caller target (last? captures) state after := by
  obtain ⟨next,same,bound⟩ := bindAll_bound captures present caller
  rw [binds] at same
  cases same
  exact bound

theorem last?_entries {ops : List Operand} {slots : List Slot}
    (inRange : ∀ slot ∈ slots, slot.InRange ops) (name : String) :
    last? (PatternItem.entries ops slots) name =
      (slots.reverse.find? fun slot => slot.name? == some name).bind (Slot.captured? ops) := by
  have names : ∀ slot ∈ slots.reverse,
      (slot.bound? ops).any (fun entry => entry.1 == name) = (slot.name? == some name) := by
    intro slot member
    rw [← (inRange slot (List.mem_reverse.mp member)).bound?]
    cases slot.bound? ops <;> simp
  rw [last?,PatternItem.entries,← List.filterMap_reverse,List.find?_filterMap,List.find?_congr names,
    Option.map_bind]
  exact congrArg _ (funext Slot.bound?_snd)

end Capture

namespace PatternItem

/-- A pattern that was read. -/
def Parsed (pattern : List PatternItem) : Prop :=
  ∃ keywords nodes, ofNodes? keywords nodes = some pattern

theorem Parsed.captures? {pattern : List PatternItem} {ops : List Operand} (parsed : Parsed pattern)
    (matched : matchesAll pattern ops = true) :
    captures? pattern ops = some (entries ops (slotsAll [] 0 pattern)) ∧
      ∀ slot ∈ slotsAll [] 0 pattern, slot.InRange ops := by
  obtain ⟨keywords,nodes,read⟩ := parsed
  rw [matchesAll,Bool.and_eq_true,decide_eq_true_eq] at matched
  have here : Operand.at? ops [] = some ops := rfl
  have enough : 0 + required pattern ≤ ops.length := (Nat.zero_add _).trans_le matched.1
  exact captures?_slots here pattern (ofNodes?_shaped nodes read) enough matched.2

variable {pattern : List PatternItem} {ops : List Operand}

/-- Every variable of a pattern stands for something. -/
theorem isSome_meaning? (inRange : ∀ slot ∈ slotsAll [] 0 pattern, slot.InRange ops) {slot : Slot}
    (member : slot ∈ slotsAll [] 0 pattern) {name : String} (named : slot.name? = some name) :
    (meaning? pattern ops name).isSome := by
  have occurs : ((slotsAll [] 0 pattern).reverse.find? fun slot => slot.name? == some name).isSome :=
    List.find?_isSome.mpr ⟨slot,List.mem_reverse.mpr member,by rw [named]; exact beq_self_eq_true _⟩
  obtain ⟨last,found⟩ := Option.isSome_iff_exists.mp occurs
  have same := List.find?_some found
  have entry := (inRange last (List.mem_reverse.mp (List.mem_of_find?_eq_some found))).bound?
  rw [meaning?,found,Option.bind_some,← Slot.bound?_snd,Option.isSome_map]
  rw [eq_of_beq same] at entry
  exact Option.isSome_map.symm.trans (congrArg Option.isSome entry)

theorem Parsed.binds (parsed : Parsed pattern) (matched : matchesAll pattern ops = true)
    {target : FrameId} {state : State} (present : (state.store.frame? target).isSome)
    (caller : FrameId) :
    ∃ captures next, PatternItem.captures? pattern ops = some captures ∧
      Capture.bindAll caller target captures state = .ok () next ∧
      Capture.Bound caller target (meaning? pattern ops) state next := by
  obtain ⟨captured,inRange⟩ := parsed.captures? matched
  obtain ⟨next,run,bound⟩ :=
    Capture.bindAll_bound (entries ops (slotsAll [] 0 pattern)) present caller
  have means : Capture.last? (entries ops (slotsAll [] 0 pattern)) = meaning? pattern ops :=
    funext (Capture.last?_entries inRange)
  exact ⟨_,next,captured,run,means ▸ bound⟩

end PatternItem

namespace Transformer

/-- `t.Selects ops rule`: of all rules that match the operands, this is the first. -/
def Selects (t : Transformer) (ops : List Operand) (rule : Rule) : Prop :=
  ∃ earlier later, t.rules = earlier ++ rule :: later ∧
    PatternItem.matchesAll rule.pattern ops = true ∧
    ∀ other ∈ earlier, PatternItem.matchesAll other.pattern ops = false

theorem Selects.find? {t : Transformer} {ops : List Operand} {rule : Rule}
    (selects : t.Selects ops rule) :
    t.rules.find? (fun rule => PatternItem.matchesAll rule.pattern ops) = some rule := by
  obtain ⟨earlier,later,rules,matched,others⟩ := selects
  rw [List.find?_eq_some_iff_append]
  exact ⟨matched,earlier,later,rules,fun other member => by rw [others other member]; rfl⟩

/-- Matching guarantees binding. If a pattern that was read matches, all its items find their
operands, and all its variables, and nothing else, are bound to what stands at their places, the last
place counting for a name that occurs more than once. A use of a transformer binds so by the first
rule that matches and goes on with the body of the rule, and without such a rule fails and changes
nothing. -/
theorem matching_binds :
    (∀ pattern ops, PatternItem.Parsed pattern → PatternItem.matchesAll pattern ops = true →
      (∀ slot ∈ PatternItem.slotsAll [] 0 pattern, slot.InRange ops ∧
        ∀ name, slot.name? = some name → (PatternItem.meaning? pattern ops name).isSome) ∧
      ∀ (caller target : FrameId) (state : State), (state.store.frame? target).isSome →
        ∃ captures next, PatternItem.captures? pattern ops = some captures ∧
          Capture.bindAll caller target captures state = .ok () next ∧
          Capture.Bound caller target (PatternItem.meaning? pattern ops) state next) ∧
    ∀ (t : Transformer) (ops : List Operand) (ev : Evaluator) (caller : FrameId) (pos : Position)
      (state : State),
      (∀ rule, t.Selects ops rule → PatternItem.Parsed rule.pattern →
        (state.store.frame? t.env).isSome →
        ∃ next, Capture.Bound caller t.env (PatternItem.meaning? rule.pattern ops) state next ∧
          t.expand ev ops caller pos state = ev.body t.env rule.body next) ∧
      ((∀ rule ∈ t.rules, PatternItem.matchesAll rule.pattern ops = false) →
        t.expand ev ops caller pos state = .error (.running (.located .invalidForm pos t.env)) state) := by
  refine ⟨?_,?_⟩
  · intro pattern ops parsed matched
    obtain ⟨-,inRange⟩ := parsed.captures? matched
    refine ⟨fun slot member => ⟨inRange slot member,fun name => ?_⟩,?_⟩
    · exact PatternItem.isSome_meaning? inRange member
    · intro caller target state present
      exact parsed.binds matched present caller
  · intro t ops ev caller pos state
    refine ⟨?_,?_⟩
    · intro rule selects parsed present
      have first := selects.find?
      obtain ⟨-,-,-,matched,-⟩ := selects
      obtain ⟨captures,next,captured,run,bound⟩ := parsed.binds matched present caller
      refine ⟨next,bound,?_⟩
      simp only [expand,first,captured,bind,EStateM.bind,run]
    · intro unmatched
      have none : t.rules.find? (fun rule => PatternItem.matchesAll rule.pattern ops) = none :=
        List.find?_eq_none.mpr fun rule member => by rw [unmatched rule member]; exact Bool.false_ne_true
      rw [expand,none]
      rfl

/-- In the pattern `(a (b a ...))` the name `a` occurs twice, and the vararg counts. -/
theorem matching_binds_nested :
    let pattern : List PatternItem := [.atom "a",.list [.atom "b",.vararg "a"]]
    let ops : List Operand := [.node (.boolean true .nowhere),
      .deferred ⟨.list [.symbol "x" .nowhere,.symbol "y" .nowhere,.symbol "z" .nowhere] .nowhere,⟨7⟩⟩]
    let t : Transformer := ⟨0,[⟨[.keyword "k"],[]⟩,⟨pattern,[.symbol "b" .nowhere]⟩],Global.frame⟩
    (∃ captures next, PatternItem.captures? pattern ops = some captures ∧
      Capture.bindAll ⟨3⟩ Global.frame captures .initial = .ok () next) ∧
    (∃ next list, t.expand (.ofFuel 1) ops ⟨3⟩ .nowhere .initial =
        (Evaluator.ofFuel 1).body Global.frame [.symbol "b" .nowhere] next ∧
      next.store.binding? Global.frame "a" = some list ∧
      next.store.walk next.store.pairs.size list =
        ([.delayed ⟨.symbol "y" .nowhere,⟨7⟩⟩,.delayed ⟨.symbol "z" .nowhere,⟨7⟩⟩],.nil)) ∧
    t.expand (.ofFuel 1) [] ⟨3⟩ .nowhere .initial =
      .error (.running (.located .invalidForm .nowhere Global.frame)) .initial := by
  intro pattern ops t
  have parsed : PatternItem.Parsed pattern := ⟨[],[.symbol "a" .nowhere,.list [.symbol "b" .nowhere,
    .symbol "a" .nowhere,.symbol Node.ellipsis .nowhere] .nowhere],rfl⟩
  have matched : PatternItem.matchesAll pattern ops = true := rfl
  have selects : t.Selects ops ⟨pattern,[.symbol "b" .nowhere]⟩ :=
    ⟨[⟨[.keyword "k"],[]⟩],[],rfl,matched,List.forall_mem_singleton.mpr rfl⟩
  have means : PatternItem.meaning? pattern ops "a" = some (.many
    [.deferred ⟨.symbol "y" .nowhere,⟨7⟩⟩,.deferred ⟨.symbol "z" .nowhere,⟨7⟩⟩]) := rfl
  obtain ⟨every,use⟩ := matching_binds
  obtain ⟨captures,next,captured,run,-⟩ :=
    (every pattern ops parsed matched).2 ⟨3⟩ Global.frame .initial rfl
  refine ⟨⟨captures,next,captured,run⟩,?_,?_⟩
  · obtain ⟨next,bound,result⟩ :=
      (use t ops (.ofFuel 1) ⟨3⟩ .nowhere .initial).1 _ selects parsed rfl
    obtain ⟨list,found,walked⟩ := bound.named means
    exact ⟨next,list,result,found,walked⟩
  · exact (use t [] (.ofFuel 1) ⟨3⟩ .nowhere .initial).2 (List.forall_mem_cons.mpr
      ⟨rfl,List.forall_mem_singleton.mpr rfl⟩)

end Transformer
end MiniScheme
