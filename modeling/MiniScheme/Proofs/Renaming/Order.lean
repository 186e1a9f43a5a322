import MiniScheme.Proofs.Renaming.WellFormed

/-! Frames made in another order. Outcomes are the same up to numbers if a renaming that goes both ways
and leaves everything old as it is leads from one to the other. Such a renaming is found where one run
makes a frame early and keeps it aside until the other run makes it. -/
namespace MiniScheme

open Eval

/-- What went wrong, without the place and the applications passed through. -/
inductive Cause where
  | reading (fault : SyntaxFault)
  | running (fault : RuntimeFault)
  | outOfFuel

namespace Failure

def cause : Failure → Cause
  | reading e => .reading e.fault
  | running e => .running e.fault
  | outOfFuel => .outOfFuel

theorem cause_rename (r : Renaming) (failure : Failure) : (failure.rename r).cause = failure.cause := by
  cases failure <;> rfl

theorem cause_passThrough (failure : Failure) (pos : Position) (env : FrameId) :
    (failure.passThrough pos env).cause = failure.cause := by
  cases failure with
  | reading | outOfFuel => rfl
  | running e =>
    simp only [passThrough,RuntimeError.passThrough,cause]
    split <;> rfl

theorem cause_eq_outOfFuel {failure : Failure} : failure.cause = .outOfFuel ↔ failure = .outOfFuel := by
  cases failure <;> simp [cause]

end Failure

/-- The renaming goes both ways, and what there was in the store `old` keeps its number. -/
structure Renaming.Keeps (r : Renaming) (old : Store) : Prop where
  frame : Function.Bijective r.frame
  number : Function.Bijective r.number
  frames {f : FrameId} : f.Within old.frames.size → r.frame f = f
  numbers {i : Nat} : i < old.fresh → r.number i = i

/-- The same value and the same store but for the numbers of what is new, or the same cause of a
failure. -/
inductive Outcome.Same (old : Store) : Outcome Value → Outcome Value → Prop where
  | ok {r : Renaming} {v : Value} {s t : State} : r.Keeps old → s.store.Renamed r t.store →
      Same old (.ok v s) (.ok (v.rename r) t)
  | error {failure other : Failure} {s t : State} : other.cause = failure.cause →
      Same old (.error failure s) (.error other t)

variable {old : Store}

/-! Renamings one after the other. -/

theorem exists_factor {α : Type} {p q : α → α} (first : Function.Bijective p)
    (second : Function.Bijective q) : ∃ r, Function.Bijective r ∧ ∀ a, r (p a) = q a := by
  obtain ⟨back,left,right⟩ := Function.bijective_iff_has_inverse.mp first
  have inverse := Function.bijective_iff_has_inverse.mpr ⟨p,right,left⟩
  exact ⟨q ∘ back,second.comp inverse,fun a => congrArg q (left a)⟩

/-- What is renamed by `p` is led by `r` to what is renamed by `q`. -/
structure Renaming.Factors (p q r : Renaming) : Prop where
  frame (f : FrameId) : r.frame (p.frame f) = q.frame f
  number (i : Nat) : r.number (p.number i) = q.number i

theorem Renaming.Keeps.factor {p q : Renaming} (first : p.Keeps old) (second : q.Keeps old) :
    ∃ r : Renaming, r.Keeps old ∧ p.Factors q r := by
  obtain ⟨frame,frame_bijective,frames⟩ := exists_factor first.frame second.frame
  obtain ⟨number,number_bijective,numbers⟩ := exists_factor first.number second.number
  refine ⟨⟨frame,number⟩,⟨frame_bijective,number_bijective,?_,?_⟩,⟨frames,numbers⟩⟩
  · intro f within
    have image := frames f
    rwa [first.frames within,second.frames within] at image
  · intro i below
    have image := numbers i
    rwa [first.numbers below,second.numbers below] at image

section Factors

variable {p q r : Renaming} (factors : p.Factors q r)
include factors

theorem Value.rename_factor (v : Value) : (v.rename p).rename r = v.rename q := by
  cases v with
  | closure c => simp only [rename,factors.frame,factors.number]
  | transformer t => simp only [rename,factors.frame,factors.number]
  | delayed d => simp only [rename,Delayed.rename,factors.frame]
  | unspecified | nil | boolean | char | string | symbol | number | pair | vector | primitive | form =>
    rfl

theorem Pair.rename_factor (pair : Pair) : (pair.rename p).rename r = pair.rename q := by
  simp only [rename,Value.rename_factor factors]

theorem Store.Renamed.factor {s t u : Store} (surjective : Function.Surjective p.frame)
    (first : s.Renamed p t) (second : s.Renamed q u) : t.Renamed r u where
  parents g := by
    obtain ⟨f,rfl⟩ := surjective g
    rw [factors.frame,second.parents,first.parents,Option.map_map,Option.map_comp_map,
      show r.frame ∘ p.frame = q.frame from funext factors.frame]
  bindings g name := by
    obtain ⟨f,rfl⟩ := surjective g
    rw [factors.frame,second.bindings,first.bindings,Option.map_map,
      show Value.rename r ∘ Value.rename p = Value.rename q from funext (Value.rename_factor factors)]
  pairs := by
    rw [second.pairs,first.pairs,Array.map_map,
      show Pair.rename r ∘ Pair.rename p = Pair.rename q from funext (Pair.rename_factor factors)]
  vectors := by
    rw [second.vectors,first.vectors,Array.map_map]
    refine Array.map_congr_left fun items _ => ?_
    rw [Function.comp_apply,Array.map_map,
      show Value.rename r ∘ Value.rename p = Value.rename q from funext (Value.rename_factor factors)]

end Factors

namespace Outcome

variable {x y z : Outcome Value}

/-- Outcomes that are the same as a third are the same. -/
theorem Same.euclid (first : Same old x y) (second : Same old x z) : Same old y z := by
  cases first with
  | @ok p v s t keeps renamed =>
    cases second with
    | @ok q _ _ u other image =>
      obtain ⟨r,both,factors⟩ := keeps.factor other
      rw [← Value.rename_factor factors v]
      exact .ok both (renamed.factor factors keeps.frame.surjective image)
  | error cause =>
    cases second with
    | error other => exact .error (other.trans cause.symm)

theorem Mirrors.same {m : Mirror} (mirrors : Outcome.Mirrors m m.value x y)
    (keeps : m.toRenaming.Keeps old) : Same old x y := by
  cases mirrors with
  | ok shows => exact .ok keeps shows.toRenamed
  | error => exact .error (Failure.cause_rename _ _)

theorem Same.traced {x y : Eval Value} {s t : State} (same : Same old (x s) (y t))
    (here there : Position) (env other : FrameId) :
    Same old (Eval.traced here env x s) (Eval.traced there other y t) := by
  rw [Eval.traced,Eval.traced]
  generalize x s = left,y t = right at same ⊢
  cases same with
  | ok keeps renamed => exact .ok keeps renamed
  | error cause =>
    refine .error ?_
    rw [Failure.cause_passThrough,Failure.cause_passThrough,cause]

/-- Outcomes that are the same are final together. -/
theorem Same.final_iff (same : Same old x y) : Final x ↔ Final y := by
  cases same with
  | ok => exact Iff.rfl
  | error cause =>
    simp only [final_error_iff,ne_eq,← Failure.cause_eq_outOfFuel,cause]

end Outcome

/-! A number taken out of turn. -/

/-- The numbers from `low` on are moved by one up to `high`, which takes the place of `low`. -/
def rotate (low high i : Nat) : Nat :=
  if i < low then i else if i < high then i + 1 else if i = high then low else i

theorem rotate_of_lt {low high i : Nat} (lt : i < low) : rotate low high i = i := if_pos lt

theorem rotate_eq_skip {low high i : Nat} (lt : i < high) : rotate low high i = skip low i := by
  rw [rotate,skip,if_pos lt]

theorem rotate_high {low high : Nat} (le : low ≤ high) : rotate low high high = low := by
  rw [rotate,if_neg (Nat.not_lt.mpr le),if_neg (Nat.lt_irrefl high),if_pos rfl]

theorem rotate_of_gt {low high i : Nat} (gt : high < i) : rotate low high i = i := by
  rw [rotate,if_neg (Nat.not_lt.mpr (Nat.le_of_lt gt)),if_neg (Nat.ne_of_gt gt)]
  split <;> rfl

theorem rotate_bijective (low high : Nat) : Function.Bijective (rotate low high) := by
  constructor
  · intro i j same
    simp only [rotate] at same
    split_ifs at same <;> omega
  · intro i
    by_cases inside : low ≤ i ∧ i ≤ high
    · by_cases first : i = low
      · refine ⟨high,?_⟩
        simp only [rotate]
        split_ifs <;> omega
      · refine ⟨i - 1,?_⟩
        simp only [rotate]
        split_ifs <;> omega
    · refine ⟨i,?_⟩
      simp only [rotate]
      split_ifs <;> omega

/-- The frame whose number is the image of the number. -/
def FrameId.move (g : Nat → Nat) (f : FrameId) : FrameId := ⟨g f.index⟩

theorem FrameId.move_injective {g : Nat → Nat} (injective : Function.Injective g) :
    Function.Injective (move g) :=
  fun _ _ same => congrArg mk (injective (congrArg index same))

theorem FrameId.move_bijective {g : Nat → Nat} (bijective : Function.Bijective g) :
    Function.Bijective (move g) := by
  refine ⟨move_injective bijective.injective,fun f => ?_⟩
  obtain ⟨i,image⟩ := bijective.surjective f.index
  exact ⟨⟨i⟩,congrArg mk image⟩

/-! A frame made early. -/

namespace Mirror

/-- The mirror in which there is one more frame, of number `n`, which stands for `frame`. -/
def beside (n limit : Nat) (frame : Frame) : Mirror where
  frame := .move (skip n)
  number := id
  limit := limit
  aside g := if g = ⟨n⟩ then some (frame.rename ⟨.move (skip n),id⟩) else none
  frame_injective := FrameId.move_injective (skip_injective n)
  number_injective := Function.injective_id

/-- The mirror in which the frame `high` was made early, as the frame `low`. -/
def early (low high limit : Nat) : Mirror where
  frame := .move (rotate low high)
  number := id
  limit := limit
  aside _ := none
  frame_injective := FrameId.move_injective (rotate_bijective low high).injective
  number_injective := Function.injective_id

theorem early_keeps {low : Nat} (high limit : Nat) (le : old.frames.size ≤ low) :
    (early low high limit).toRenaming.Keeps old where
  frame := FrameId.move_bijective (rotate_bijective low high)
  number := Function.bijective_id
  frames within := congrArg FrameId.mk (rotate_of_lt (Nat.lt_of_lt_of_le within le))
  numbers _ := rfl

end Mirror

theorem skip_ne (n i : Nat) : skip n i ≠ n := by
  rw [skip]
  split <;> omega

theorem exists_skip {n i : Nat} (apart : i ≠ n) : ∃ j, skip n j = i := by
  rcases Nat.lt_or_gt_of_ne apart with below | above
  · exact ⟨i,skip_of_lt below⟩
  · refine ⟨i - 1,?_⟩
    rw [skip_of_le (by omega)]
    omega

/-- Frames that do not exist may be moved. -/
theorem Store.frame?_skip (s : Store) (f : FrameId) :
    s.frame? (f.move (skip s.frames.size)) = s.frame? f := by
  by_cases present : f.index < s.frames.size
  · rw [FrameId.move,skip_of_lt present]
  · have beyond := Nat.le_of_not_lt present
    rw [FrameId.move,skip_of_le beyond,frame?,frame?,Array.getElem?_eq_none_iff.mpr beyond,
      Array.getElem?_eq_none_iff]
    exact Nat.le_succ_of_le beyond

namespace Mirror

variable {s t : Store} {n limit : Nat} {frame : Frame} {env : FrameId}

theorem beside_ne (f : FrameId) : (beside n limit frame).frame f ≠ ⟨n⟩ :=
  fun same => skip_ne n f.index (congrArg FrameId.index same)

/-- The frame is made. -/
theorem shows_beside (grounded : s.Grounded) (limit : Nat) (inside : env.Within s.frames.size) :
    (beside s.frames.size limit ⟨some env,[]⟩).Shows s (s.newFrame (some env)).2 := by
  let m := beside s.frames.size limit ⟨some env,[]⟩
  have old {f : FrameId} (present : f.index < s.frames.size) : m.frame f = f :=
    congrArg FrameId.mk (skip_of_lt present)
  have fixed {v : Value} (holds : s.Holds v) : m.value v = v := by
    have same : m.value v = v.rename .refl :=
      Value.rename_congr (grounded.values holds) (fun _ => old) rfl
    rw [same,Value.rename_refl,id]
  have frames (f : FrameId) : (s.newFrame (some env)).2.frame? (m.frame f) = s.frame? f := by
    rw [Store.frame?_newFrame,if_neg (beside_ne f)]
    exact s.frame?_skip f
  refine ⟨.of_fixed fixed ?_ ?_ rfl rfl,?_,fun _ => rfl,?_,?_⟩
  · intro f
    rw [Store.parent?,frames]
    change s.parent? f = _
    cases known : s.parent? f with
    | none => rfl
    | some above =>
      cases above with
      | none => rfl
      | some parent =>
        have present := Store.isSome_parent?.mp (Option.isSome_of_eq_some known)
        rw [Option.map_some,Option.map_some,old ((grounded.parents known).trans present)]
  · intro f name
    rw [Store.binding?,frames]
    rfl
  · intro k
    have moved : skip s.frames.size (s.frames.size + k) = s.frames.size + 1 + k := by
      rw [skip_of_le (Nat.le_add_right _ _)]
      omega
    rw [Store.newFrame,Array.size_push,← moved]
    rfl
  · intro f parent known
    have older := grounded.parents known
    have present := Store.isSome_parent?.mp (Option.isSome_of_eq_some known)
    rw [old present,old (older.trans present)]
    exact ⟨older,older⟩
  · intro g apart
    have same : g = ⟨s.frames.size⟩ := by
      by_contra other
      obtain ⟨j,image⟩ := exists_skip fun same => other (congrArg FrameId.mk same)
      exact apart ⟨j⟩ (congrArg FrameId.mk image)
    have parent : m.frame env = env := old inside
    simp only [beside,Store.frame?_newFrame,same,if_true,Frame.rename,Option.map_some]
    exact congrArg (fun f => some (Frame.mk (some f) [])) parent.symm

/-- Names bound in the frame aside are seen nowhere else. -/
theorem Shows.defineBeside (shows : (beside n limit frame).Shows s t) (name : String) (v : Value) :
    (beside n limit (frame.define name v)).Shows s
      (t.define ⟨n⟩ name ((beside n limit frame).value v)) where
  parents f := Store.parent?_define.trans (shows.parents f)
  bindings f key := by
    rw [Store.binding?_define,if_neg fun same => beside_ne f same.1]
    exact shows.bindings f key
  pairs := shows.pairs
  vectors := shows.vectors
  nextFrame k := (shows.nextFrame k).trans (by simp [Store.define])
  nextNumber := shows.nextNumber
  older := shows.older
  others g apart := by
    rw [Store.frame?_define,shows.others g apart]
    simp only [beside]
    split
    · rw [Option.map_some,Frame.define_rename]
    · rfl

end Mirror

/-- The second store is the first with one more frame. Nothing belongs to the frame so far. -/
structure Store.Entered (s : Store) (frame : Frame) (t : Store) : Prop where
  frames (f : FrameId) : t.frame? f = if f = ⟨s.frames.size⟩ then some frame else s.frame? f
  size : t.frames.size = s.frames.size + 1
  pairs : t.pairs = s.pairs
  vectors : t.vectors = s.vectors
  fresh : t.fresh = s.fresh
  values {v : Value} : t.Holds v → v.Within s.frames.size

theorem Store.Grounded.entered {s : Store} (grounded : s.Grounded) (env : FrameId)
    {bindings : List (String × Value)} (within : ∀ v ∈ bindings.map Prod.snd, v.Within s.frames.size) :
    s.Entered (Frame.defineAll ⟨some env,[]⟩ bindings)
      ((s.newFrame (some env)).2.defineAll ⟨s.frames.size⟩ bindings) := by
  obtain ⟨frames,size,same⟩ := defineAll_eq (s.newFrame (some env)).2 ⟨s.frames.size⟩ bindings
  refine ⟨fun f => ?_,?_,?_,?_,?_,fun {v} holds => ?_⟩
  · rw [frame?_defineAll,frame?_newFrame]
    split <;> rfl
  · rw [same]
    exact size.trans (Array.size_push _)
  · rw [same]
    rfl
  · rw [same]
    rfl
  · rw [same]
    rfl
  · rcases holds_defineAll holds with new | old
    · exact within v new
    · exact grounded.values (holds_newFrame old)

namespace Mirror.Shows

variable {s made t : Store} {n limit : Nat} {frame : Frame} {env : FrameId}
  (shows : (beside n limit frame).Shows s t)
include shows

theorem beside_size (le : n ≤ s.frames.size) : t.frames.size = s.frames.size + 1 := by
  have next : skip n s.frames.size = t.frames.size := congrArg FrameId.index (shows.nextFrame 0)
  rw [← next,skip_of_le le]

variable (entered : s.Entered frame made) (le : n ≤ s.frames.size)
include entered le

/-- A frame is one that was there before, the frame that was aside, or there is none. -/
theorem enter_cases (f : FrameId) :
    (f.index < s.frames.size ∧ made.frame? f = s.frame? f ∧
      (early n s.frames.size limit).frame f = (beside n limit frame).frame f) ∨
    (f = ⟨s.frames.size⟩ ∧ made.frame? f = some frame ∧
      (early n s.frames.size limit).frame f = ⟨n⟩ ∧
      t.frame? ⟨n⟩ = some (frame.rename (beside n limit frame).toRenaming)) ∨
    made.frame? f = none ∧ (early n s.frames.size limit).frame f = f ∧ t.frame? f = none := by
  obtain ⟨i⟩ := f
  rcases Nat.lt_trichotomy i s.frames.size with before | rfl | after
  · refine .inl ⟨before,?_,congrArg FrameId.mk (rotate_eq_skip before)⟩
    rw [entered.frames,if_neg (by simpa using Nat.ne_of_lt before)]
  · refine .inr (.inl ⟨rfl,?_,congrArg FrameId.mk (rotate_high le),?_⟩)
    · rw [entered.frames,if_pos rfl]
    · exact (shows.others ⟨n⟩ beside_ne).trans (if_pos rfl)
  · have absent {u : Store} (less : u.frames.size = s.frames.size + 1) : u.frame? ⟨i⟩ = none :=
      Array.getElem?_eq_none_iff.mpr (less.trans_le after)
    exact .inr (.inr ⟨absent entered.size,congrArg FrameId.mk (rotate_of_gt after),
      absent (shows.beside_size le)⟩)

/-- The frame is made on the other side too, and is aside no more. -/
theorem enter (parent : frame.parent = some env) (inside : env.Within n) :
    (early n s.frames.size limit).Shows made t := by
  let m := early n s.frames.size limit
  let aside := beside n limit frame
  have kept {f : FrameId} (before : f.index < s.frames.size) : m.frame f = aside.frame f :=
    congrArg FrameId.mk (rotate_eq_skip before)
  have same {v : Value} (holds : made.Holds v) : v.rename aside.toRenaming = v.rename m.toRenaming :=
    Value.rename_congr (entered.values holds) (fun _ before => (kept before).symm) rfl
  have outer : m.frame env = env := congrArg FrameId.mk (rotate_of_lt inside)
  have present : env.index < s.frames.size := Nat.lt_of_lt_of_le inside le
  refine ⟨⟨fun f => ?_,fun f name => ?_,?_,?_⟩,fun k => ?_,?_,fun {f above} known => ?_,?_⟩
  · obtain ⟨before,made_f,moved⟩ | ⟨-,made_f,moved,there⟩ | ⟨made_f,moved,absent⟩ :=
      shows.enter_cases entered le f
    · have parents := shows.parents f
      rw [moved,parents,Store.parent?,Store.parent?,made_f]
      change (s.parent? f).map _ = (s.parent? f).map _
      cases known : s.parent? f with
      | none => rfl
      | some above =>
        cases above with
        | none => rfl
        | some parent =>
          have older := (shows.older known).1
          simp only [Option.map_some]
          rw [← kept (older.trans before)]
    · rw [Store.parent?,Store.parent?,made_f,moved,there,Option.map_some,Option.map_some,Frame.rename,
        parent,Option.map_some,Option.map_some,← kept present]
      rfl
    · rw [Store.parent?,Store.parent?,made_f,moved,absent]
      rfl
  · refine Eq.trans ?_ (Store.map_binding_congr same f name)
    obtain ⟨before,made_f,moved⟩ | ⟨-,made_f,moved,there⟩ | ⟨made_f,moved,absent⟩ :=
      shows.enter_cases entered le f
    · rw [moved,shows.bindings,Store.binding?,Store.binding?,made_f]
    · rw [Store.binding?,Store.binding?,made_f,moved,there]
      exact frame.find?_rename _ name
    · rw [Store.binding?,Store.binding?,made_f,moved,absent]
      rfl
  · rw [shows.pairs,← entered.pairs]
    exact Store.map_pairs_congr same
  · rw [shows.vectors,← entered.vectors]
    exact Store.map_vectors_congr same
  · rw [entered.size,shows.beside_size le]
    have after : s.frames.size < s.frames.size + 1 + k := by omega
    exact congrArg FrameId.mk (rotate_of_gt after)
  · intro k
    rw [entered.fresh]
    exact shows.nextNumber
  · obtain ⟨before,made_f,moved⟩ | ⟨rfl,made_f,moved,there⟩ | ⟨made_f,moved,absent⟩ :=
      shows.enter_cases entered le f
    · rw [Store.parent?,made_f] at known
      obtain ⟨older,image⟩ := shows.older known
      refine ⟨older,?_⟩
      rw [moved,kept (older.trans before)]
      exact image
    · rw [Store.parent?,made_f,Option.map_some,parent] at known
      cases known
      rw [outer,moved]
      exact ⟨present,inside⟩
    · rw [Store.parent?,made_f] at known
      contradiction
  · intro g apart
    obtain ⟨f,image⟩ := (FrameId.move_bijective (rotate_bijective n s.frames.size)).surjective g
    exact (apart f image).elim

end Mirror.Shows
end MiniScheme
