import MiniScheme.Eval.Interpreter
import MiniScheme.Proofs.Store.Cycles
import MiniScheme.Proofs.Store.Frames

/-! What the built-in procedures do to the store. A call that fails changes nothing. A call that
succeeds adds cells, or changes one place of one cell, or changes nothing, and reads and writes only
what is there. -/
namespace MiniScheme

/-! Changes to a store. -/

namespace Store

/-- `s.Gains m n t`: all that is in `s` is in `t` as it was, beside `m` new pairs and `n` new vectors. -/
structure Gains (s : Store) (m n : Nat) (t : Store) : Prop extends s.Extends t where
  frames : t.frames = s.frames
  fresh : t.fresh = s.fresh
  pairCount : t.pairs.size = s.pairs.size + m
  vectorCount : t.vectors.size = s.vectors.size + n

/-- In `t` the pair `p` of `s` is `cell`, and all else is as it was. -/
structure SetsPair (s : Store) (p : PairId) (cell : Pair) (t : Store) : Prop where
  frames : t.frames = s.frames
  vectors : t.vectors = s.vectors
  fresh : t.fresh = s.fresh
  here : t.pair? p = some cell
  others : ∀ q, q ≠ p → t.pair? q = s.pair? q

/-- In `t` the vector `v` of `s` holds `items`, and all else is as it was. -/
structure SetsVector (s : Store) (v : VectorId) (items : Array Value) (t : Store) : Prop where
  frames : t.frames = s.frames
  pairs : t.pairs = s.pairs
  fresh : t.fresh = s.fresh
  here : t.vectors[v.index]? = some items
  others : ∀ w : VectorId, w ≠ v → t.vectors[w.index]? = s.vectors[w.index]?

/-- `s.Lists v cells values`: from `v` on, these pairs hold the values one after the other, and the
last of them ends the list. -/
inductive Lists (s : Store) : Value → List PairId → List Value → Prop where
  | nil : Lists s .nil [] []
  | cons {p : PairId} {v rest : Value} {cells : List PairId} {values : List Value} :
      s.pair? p = some ⟨v,rest⟩ → Lists s rest cells values →
      Lists s (.pair p) (p :: cells) (v :: values)

variable {s t : Store}

theorem Lists.extend {v : Value} {cells : List PairId} {values : List Value}
    (lists : s.Lists v cells values) (extension : s.Extends t) : t.Lists v cells values := by
  induction lists with
  | nil => exact .nil
  | cons cell _ ih => exact .cons (extension.pairs cell) ih

theorem pair?_eq_none {p : PairId} : s.pair? p = none ↔ s.pairs.size ≤ p.index := by
  rw [pair?,Array.getElem?_eq_none_iff]

theorem cons_gains (s : Store) (head tail : Value) : s.Gains 1 0 (s.cons head tail).2 :=
  { cons_extends s head tail with
    frames := rfl
    fresh := rfl
    pairCount := Array.size_push ..
    vectorCount := rfl }

theorem list_gains (s : Store) (values : List Value) : s.Gains values.length 0 (s.list values).2 := by
  have touched := list_eq (s := s) values
  exact { list_extends values with
    frames := list_frames values
    fresh := by rw [touched]
    pairCount := list_size values
    vectorCount := by rw [touched]; rfl }

theorem newVector_gains (s : Store) (items : Array Value) : s.Gains 0 1 (s.newVector items).2 :=
  { newVector_extends s items with
    frames := rfl
    fresh := rfl
    pairCount := rfl
    vectorCount := Array.size_push .. }

/-- A new list is made of new pairs. -/
theorem list_lists (s : Store) (values : List Value) :
    ∃ cells, (s.list values).2.Lists (s.list values).1 cells values ∧ ∀ p ∈ cells, s.pair? p = none := by
  induction values with
  | nil => exact ⟨[],.nil,by simp⟩
  | cons v values ih =>
    obtain ⟨cells,lists,fresh⟩ := ih
    let rest := s.list values
    have longer : (rest.2.cons v rest.1).2.Lists rest.1 cells values :=
      lists.extend (rest.2.cons_extends v rest.1)
    have newest : s.pair? ⟨rest.2.pairs.size⟩ = none :=
      pair?_eq_none.mpr (list_extends values).size
    exact ⟨⟨rest.2.pairs.size⟩ :: cells,.cons (rest.2.cons_pair? v rest.1) longer,
      List.forall_mem_cons.mpr ⟨newest,fresh⟩⟩

theorem pair?_modify (s : Store) (p : PairId) (change : Pair → Pair) (q : PairId) :
    { s with pairs := s.pairs.modify p.index change }.pair? q =
      if q = p then (s.pair? q).map change else s.pair? q := by
  obtain ⟨p⟩ := p
  obtain ⟨q⟩ := q
  simp only [pair?,Array.getElem?_modify,PairId.mk.injEq,eq_comm]

theorem modify_setsPair {p : PairId} {cell : Pair} (present : s.pair? p = some cell)
    (change : Pair → Pair) :
    s.SetsPair p (change cell) { s with pairs := s.pairs.modify p.index change } where
  frames := rfl
  vectors := rfl
  fresh := rfl
  here := by rw [pair?_modify,if_pos rfl,present]; rfl
  others q other := by rw [pair?_modify,if_neg other]

theorem setItem_setsVector {v : VectorId} {items : Array Value} (present : s.vectors[v.index]? = some items)
    (i : Nat) (value : Value) : s.SetsVector v (items.setIfInBounds i value) (s.setItem v i value) where
  frames := rfl
  pairs := rfl
  fresh := rfl
  here := by simp [setItem,Array.getElem?_modify,present]
  others w other := by
    have apart : v.index ≠ w.index := fun same => other (congrArg VectorId.mk same.symm)
    simp [setItem,Array.getElem?_modify,apart]

end Store

/-! Calls that do all or nothing. -/

namespace Eval

/-- The computation fails and changes nothing, or its value and the store after it are as `E` says,
and no tracer is told. -/
def Atomic {α : Type} (E : α → Store → Prop) (x : Eval α) (state : State) : Prop :=
  match x state with
  | .ok a next => E a next.store ∧ next.tracers = state.tracers
  | .error _ next => next = state

namespace Atomic

variable {α : Type} {E : α → Store → Prop} {state : State}

theorem pure {a : α} (effect : E a state.store) : Atomic E (Pure.pure a) state := ⟨effect,rfl⟩

theorem fail (fault : RuntimeFault) : Atomic E (Eval.fail fault) state := rfl

theorem readStore {f : Store → α} (effect : E (f state.store) state.store) :
    Atomic E (Eval.readStore f) state := ⟨effect,rfl⟩

theorem onStore {f : Store → α × Store} (effect : E (f state.store).1 (f state.store).2) :
    Atomic E (Eval.onStore f) state := ⟨effect,rfl⟩

theorem ofFault {β : Type} {f : β → α} {result : Except RuntimeFault β}
    (effect : ∀ b, E (f b) state.store) : Atomic E (f <$> Eval.ofFault result) state := by
  cases result with
  | ok b => exact ⟨effect b,rfl⟩
  | error fault => rfl

theorem one {f : Value → Eval α} {args : List Value}
    (effect : ∀ a, args = [a] → Atomic E (f a) state) : Atomic E (Arguments.one f args) state := by
  match args with
  | [a] => exact effect a rfl
  | [] | _ :: _ :: _ => rfl

theorem two {f : Value → Value → Eval α} {args : List Value}
    (effect : ∀ a b, args = [a,b] → Atomic E (f a b) state) :
    Atomic E (Arguments.two f args) state := by
  match args with
  | [a,b] => exact effect a b rfl
  | [] | [_] | _ :: _ :: _ :: _ => rfl

theorem three {f : Value → Value → Value → Eval α} {args : List Value}
    (effect : ∀ a b c, args = [a,b,c] → Atomic E (f a b c) state) :
    Atomic E (Arguments.three f args) state := by
  match args with
  | [a,b,c] => exact effect a b c rfl
  | [] | [_] | [_,_] | _ :: _ :: _ :: _ :: _ => rfl

theorem asPair {procedure : String} {v : Value} {f : PairId → Eval α}
    (effect : ∀ p, v = .pair p → Atomic E (f p) state) :
    Atomic E (Primitive.asPair procedure v >>= f) state := by
  cases v with
  | pair p => exact effect p rfl
  | _ => rfl

theorem asVector {procedure : String} {v : Value} {f : VectorId → Eval α}
    (effect : ∀ i, v = .vector i → Atomic E (f i) state) :
    Atomic E (Primitive.asVector procedure v >>= f) state := by
  cases v with
  | vector i => exact effect i rfl
  | _ => rfl

theorem asIndex {procedure : String} {length : Nat} {v : Value} {f : Nat → Eval α}
    (effect : ∀ i : Nat, v = .number (.integer i) → i < length → Atomic E (f i) state) :
    Atomic E (Primitive.asIndex procedure length v >>= f) state := by
  cases v with
  | number n =>
    cases n with
    | integer i =>
      by_cases inside : 0 ≤ i ∧ i < length
      · obtain ⟨k,rfl⟩ := Int.eq_ofNat_of_zero_le inside.1
        have found : Primitive.asIndex procedure length (.number (.integer k)) = Pure.pure k :=
          if_pos inside
        rw [found]
        exact effect k rfl (by exact_mod_cast inside.2)
      · have refused : Primitive.asIndex procedure length (.number (.integer i)) =
            Eval.fail (.indexOutOfRange i length) := if_neg inside
        rw [refused]
        rfl
    | _ => rfl
  | _ => rfl

end Atomic
end Eval

namespace Primitive

/-- What a successful call with these arguments may give and do to the store `s`. Whatever it reads
or writes, argument, pair, vector or element, is there. -/
def Effect (args : List Value) (s : Store) (v : Value) (t : Store) : Primitive → Prop
  | .cons => ∃ a b p, args = [a,b] ∧ v = .pair p ∧ s.pair? p = none ∧ t.pair? p = some ⟨a,b⟩ ∧ s.Gains 1 0 t
  | .list => ∃ cells, t.Lists v cells args ∧ (∀ p ∈ cells, s.pair? p = none) ∧ s.Gains args.length 0 t
  | .vector => ∃ i, v = .vector i ∧ s.vectors[i.index]? = none ∧
      t.vectors[i.index]? = some args.toArray ∧ s.Gains 0 1 t
  | .setCar => ∃ p x old, args = [.pair p,x] ∧ s.pair? p = some old ∧ s.SetsPair p ⟨x,old.tail⟩ t
  | .setCdr => ∃ p x old, args = [.pair p,x] ∧ s.pair? p = some old ∧ s.SetsPair p ⟨old.head,x⟩ t
  | .vectorSet => ∃ (i : VectorId) (k : Nat) (x : Value) (old new : Array Value),
      args = [.vector i,.number (.integer k),x] ∧ s.vectors[i.index]? = some old ∧ k < old.size ∧
        s.SetsVector i new t ∧ new.size = old.size ∧ new[k]? = some x ∧ ∀ j, j ≠ k → new[j]? = old[j]?
  | .car => t = s ∧ ∃ p cell, args = [.pair p] ∧ s.pair? p = some cell ∧ v = cell.head
  | .cdr => t = s ∧ ∃ p cell, args = [.pair p] ∧ s.pair? p = some cell ∧ v = cell.tail
  | .vectorLength => t = s ∧ ∃ i items, args = [.vector i] ∧ s.vectors[i.index]? = some items ∧
      v = .number (.integer items.size)
  | .vectorRef => t = s ∧ ∃ (i : VectorId) (k : Nat) (items : Array Value),
      args = [.vector i,.number (.integer k)] ∧ s.vectors[i.index]? = some items ∧ items[k]? = some v
  | .isNull | .isPair | .isNumber | .isSymbol | .isProcedure | .isVector | .not | .force =>
    t = s ∧ args.length = 1
  | .isEq => t = s ∧ args.length = 2
  | .add | .mul | .sub | .div | .eq | .lt | .gt | .le | .ge | .load => t = s

open Eval

variable {args : List Value} {state : State}

theorem kindTest_atomic {E : Value → Store → Prop} {accept : Kind → Bool}
    (effect : ∀ a b, args = [a] → E (.boolean b) state.store) : Atomic E (kindTest accept args) state :=
  .one fun a only => .pure (effect a _ only)

/-- An element that is read is there. -/
theorem readItem_atomic {E : Value → Store → Prop} {v index : Value} (present : state.store.Has v)
    (effect : ∀ (i : VectorId) (k : Nat) (items : Array Value) (x : Value), v = .vector i →
      index = .number (.integer k) → state.store.vectors[i.index]? = some items → items[k]? = some x →
        E x state.store) :
    Atomic E (readItem v index) state := by
  refine .asVector fun i cell => ?_
  subst cell
  change Atomic E (asIndex _ (state.store.items i).size index >>= _) state
  refine .asIndex fun k number inside => .pure ?_
  have found := Array.getElem?_eq_getElem inside
  refine effect i k _ _ rfl number present.vector ?_
  rw [found]
  rfl

theorem writeItem_atomic {E : Value → Store → Prop} {v index value : Value}
    (present : state.store.Has v)
    (effect : ∀ (i : VectorId) (k : Nat), v = .vector i → index = .number (.integer k) →
      state.store.vectors[i.index]? = some (state.store.items i) → k < (state.store.items i).size →
        E .unspecified (state.store.setItem i k value)) :
    Atomic E (writeItem v index value) state := by
  refine .asVector fun i cell => ?_
  subst cell
  change Atomic E (asIndex _ (state.store.items i).size index >>= _) state
  refine .asIndex fun k number inside => ?_
  exact ⟨effect i k rfl number present.vector inside,rfl⟩

/-- One place of a pair is overwritten. -/
theorem setPair_atomic {E : Value → Store → Prop} {procedure : String} {v : Value} {change : Pair → Pair}
    (present : state.store.Has v)
    (effect : ∀ (p : PairId) (old : Pair) (t : Store), v = .pair p → state.store.pair? p = some old →
      state.store.SetsPair p (change old) t → E .unspecified t) :
    Atomic E (do
      let c ← asPair procedure v
      Eval.changeStore fun s => { s with pairs := s.pairs.modify c.index change }
      return .unspecified) state := by
  refine .asPair fun p cell => ?_
  subst cell
  exact ⟨effect p _ _ rfl present.pair (Store.modify_setsPair present.pair change),rfl⟩

/-- Forcing a value that is not delayed gives it back, if there is fuel at all. -/
theorem force_atomic {E : Value → Store → Prop} {v : Value} (plain : v.kind ≠ .delayed)
    (effect : E v state.store) (fuel : Nat) : Atomic E ((Evaluator.ofFuel fuel).force v) state := by
  cases fuel with
  | zero => rfl
  | succ fuel =>
    cases v with
    | delayed d => contradiction
    | _ => exact ⟨effect,rfl⟩

/-- Every primitive does all it does or nothing. -/
theorem run_effect (p : Primitive) (plain : ∀ v ∈ args, v.kind ≠ .delayed)
    (present : ∀ v ∈ args, state.store.Has v) (fuel : Nat) :
    Atomic (fun v t => p.Effect args state.store v t) (p.run (Evaluator.ofFuel fuel).force args) state := by
  cases p with
  | cons =>
    refine .two fun a b only => .onStore ?_
    exact ⟨a,b,_,only,rfl,Store.pair?_eq_none.mpr (Nat.le_refl _),state.store.cons_pair? a b,
      state.store.cons_gains a b⟩
  | list =>
    obtain ⟨cells,lists,fresh⟩ := state.store.list_lists args
    rw [run,Eval.newList]
    refine .onStore ?_
    exact ⟨cells,lists,fresh,state.store.list_gains args⟩
  | vector =>
    rw [run]
    refine .onStore ?_
    refine ⟨_,rfl,?_,?_,state.store.newVector_gains _⟩
    · exact Array.getElem?_eq_none_iff.mpr (Nat.le_refl _)
    · simp [Store.newVector]
  | setCar | setCdr =>
    refine .two fun v x only => setPair_atomic (present v (by simp [only])) ?_
    rintro p old t rfl stored sets
    exact ⟨p,x,old,only,stored,sets⟩
  | vectorSet =>
    refine .three fun v index x only => writeItem_atomic (present v (by simp [only])) ?_
    rintro i k rfl rfl stored inside
    refine ⟨i,k,x,_,_,only,stored,inside,Store.setItem_setsVector stored k x,?_,?_,?_⟩
    · exact Array.size_setIfInBounds
    · rw [Array.getElem?_setIfInBounds,if_pos rfl,if_pos inside]
    · intro j other
      rw [Array.getElem?_setIfInBounds,if_neg (Ne.symm other)]
  | car | cdr =>
    refine .one fun v only => .asPair fun p cell => .readStore ?_
    subst cell
    exact ⟨rfl,p,⟨state.store.head p,state.store.tail p⟩,only,(present _ (by simp [only])).pair,rfl⟩
  | vectorLength =>
    refine .one fun v only => .asVector fun i cell => .readStore ?_
    subst cell
    exact ⟨rfl,i,_,only,(present _ (by simp [only])).vector,rfl⟩
  | vectorRef =>
    refine .two fun v index only => readItem_atomic (present v (by simp [only])) ?_
    rintro i k items x rfl rfl stored found
    exact ⟨rfl,i,k,items,only,stored,found⟩
  | isNull | isPair | isNumber | isSymbol | isProcedure | isVector =>
    rw [run]
    refine kindTest_atomic ?_
    intro a b only
    exact ⟨rfl,congrArg List.length only⟩
  | not => exact .one fun v only => .pure ⟨rfl,congrArg List.length only⟩
  | force =>
    exact .one fun v only => force_atomic (plain v (by simp [only])) ⟨rfl,congrArg List.length only⟩ fuel
  | isEq => exact .two fun a b only => .pure ⟨rfl,congrArg List.length only⟩
  | add | mul | sub | div | eq | lt | gt | le | ge => exact .ofFault fun _ => rfl
  | load => exact .fail _

/-- Built-in procedures are atomic and have no other effect than they should. Given arguments that are
not delayed and whose cells are there, a call that fails leaves the state as it is, and a call that
succeeds has its effect on the store and no more. -/
theorem calls_are_atomic (p : Primitive) (plain : ∀ v ∈ args, v.kind ≠ .delayed)
    (present : ∀ v ∈ args, state.store.Has v) (fuel : Nat) :
    (∀ failure next, p.run (Evaluator.ofFuel fuel).force args state = .error failure next →
      next = state) ∧
    ∀ v next, p.run (Evaluator.ofFuel fuel).force args state = .ok v next →
      p.Effect args state.store v next.store ∧ next.tracers = state.tracers := by
  have effect := run_effect p plain present fuel
  rw [Atomic] at effect
  constructor
  · intro failure next failed
    rwa [failed] at effect
  · intro v next returned
    rwa [returned] at effect

/-- A pair whose tail becomes a list that holds the pair, and an index one too large. -/
theorem calls_are_atomic_shared :
    (∃ next, setCdr.run (Evaluator.ofFuel 1).force [.pair ⟨0⟩,.pair ⟨1⟩] ⟨.shared,.none⟩ =
        .ok .unspecified next ∧
      Store.shared.SetsPair ⟨0⟩ ⟨.boolean true,.pair ⟨1⟩⟩ next.store) ∧
    ∃ failure next, vectorSet.run (Evaluator.ofFuel 1).force [.vector ⟨0⟩,.number (.integer 2),.nil]
      ⟨.shared,.none⟩ = .error failure next ∧ next = ⟨.shared,.none⟩ := by
  have pairs : ∀ v ∈ [Value.pair ⟨0⟩,.pair ⟨1⟩], Store.shared.Has v := by
    simp [Store.has_pair,Store.shared]
  have cells : ∀ v ∈ [Value.vector ⟨0⟩,.number (.integer 2),.nil], Store.shared.Has v := by
    simpa [Store.has_vector,Store.shared] using ⟨Store.has_atom rfl,Store.has_atom rfl⟩
  constructor
  · refine ⟨_,rfl,?_⟩
    have effect := (@calls_are_atomic _ ⟨.shared,.none⟩ setCdr (by simp [Value.kind]) pairs 1).2 _ _ rfl
    obtain ⟨⟨p,x,old,only,stored,sets⟩,-⟩ := effect
    cases only
    cases stored
    exact sets
  · have atomic := @calls_are_atomic _ ⟨.shared,.none⟩ vectorSet (by simp [Value.kind,Number.kind]) cells 1
    exact ⟨_,_,rfl,atomic.1 _ _ rfl⟩

end Primitive
end MiniScheme
