import MiniScheme.Proofs.Renaming.Evaluator
import MiniScheme.Proofs.Session.Forest

/-! Well-formed stores. Their frames form a forest, and the procedures and transformers in them have
numbers that were given out. A mirror that moves all other numbers leaves such a store as it is, and so
it leaves what evaluation makes of the store: every state that a session comes to is well-formed. -/
namespace MiniScheme

/-- The number of a procedure or transformer is one of the first `n`. -/
def Value.Numbered (n : Nat) : Value → Prop
  | closure c => c.id < n
  | transformer t => t.id < n
  | _ => True

structure Store.WellFormed (s : Store) : Prop extends Store.Grounded s where
  numbers {v : Value} : s.Holds v → v.Numbered s.fresh

/-- Numbers from `n` on are moved by one. -/
def skip (n i : Nat) : Nat := if i < n then i else i + 1

theorem skip_of_lt {n i : Nat} (lt : i < n) : skip n i = i := if_pos lt

theorem skip_of_le {n i : Nat} (le : n ≤ i) : skip n i = i + 1 := if_neg (Nat.not_lt.mpr le)

theorem skip_injective (n : Nat) : Function.Injective (skip n) := by
  intro i j same
  simp only [skip] at same
  split at same <;> split at same <;> omega

/-- Nothing is renamed. -/
def Renaming.refl : Renaming := ⟨id,id⟩

section Congruence

variable {r q : Renaming} {s : Store} {v : Value}

theorem Value.rename_refl : rename .refl = id := funext fun v => by cases v <;> rfl

theorem Pair.rename_refl : rename .refl = id := funext fun p => by simp [rename,Value.rename_refl]

/-- Values belong to frames, so how other frames are renamed does not matter. -/
theorem Value.rename_congr {n : Nat} (within : v.Within n)
    (frames : ∀ f, f.index < n → r.frame f = q.frame f) (numbers : r.number = q.number) :
    v.rename r = v.rename q := by
  cases v with
  | closure c => simp only [rename,frames c.env within,numbers]
  | transformer t => simp only [rename,frames t.env within,numbers]
  | delayed d => simp only [rename,Delayed.rename,frames d.env within]
  | unspecified | nil | boolean | char | string | symbol | number | pair | vector | primitive | form =>
    rfl

theorem Value.Numbered.fixed {n : Nat} (numbered : v.Numbered n) {number : Nat → Nat}
    (same : ∀ {i}, i < n → number i = i) : v.rename ⟨id,number⟩ = v := by
  cases v with
  | closure c => simp only [rename,same numbered,id]
  | transformer t => simp only [rename,same numbered,id]
  | unspecified | nil | boolean | char | string | symbol | number | pair | vector | delayed | primitive
  | form => rfl

/-- No number from `n` on stays where it is. -/
theorem Value.numbered_of_skip {n : Nat} (fixed : v.rename ⟨id,skip n⟩ = v) : v.Numbered n := by
  have below {i : Nat} (same : skip n i = i) : i < n := by
    by_contra beyond
    rw [skip_of_le (Nat.le_of_not_lt beyond)] at same
    omega
  cases v with
  | closure c => exact below (congrArg Closure.id (closure.inj fixed))
  | transformer t => exact below (congrArg Transformer.id (transformer.inj fixed))
  | unspecified | nil | boolean | char | string | symbol | number | pair | vector | delayed | primitive
  | form => trivial

namespace Store

variable (same : ∀ {v}, s.Holds v → v.rename r = v.rename q)
include same

theorem map_binding_congr (f : FrameId) (name : String) :
    (s.binding? f name).map (Value.rename r) = (s.binding? f name).map (Value.rename q) :=
  Option.map_congr fun _ found => same (.bound found)

theorem map_pairs_congr : s.pairs.map (Pair.rename r) = s.pairs.map (Pair.rename q) := by
  refine Array.map_congr_left fun pair member => ?_
  obtain ⟨i,found⟩ := Array.mem_iff_getElem?.mp member
  have cell : s.pair? ⟨i⟩ = some pair := found
  rw [Pair.rename,Pair.rename,same (.part cell (.inl rfl)),same (.part cell (.inr rfl))]

theorem map_vectors_congr : s.vectors.map (Array.map (Value.rename r)) =
    s.vectors.map (Array.map (Value.rename q)) := by
  refine Array.map_congr_left fun items member => Array.map_congr_left fun v inside => ?_
  obtain ⟨i,found⟩ := Array.mem_iff_getElem?.mp member
  exact same (.item found inside)

end Store
end Congruence

theorem Value.Numbered.mono {n k : Nat} {v : Value} (numbered : v.Numbered n) (le : n ≤ k) :
    v.Numbered k := by
  cases v with
  | closure | transformer => exact Nat.lt_of_lt_of_le numbered le
  | unspecified | nil | boolean | char | string | symbol | number | pair | vector | delayed | primitive
  | form => trivial

theorem fixed_of_map {α : Type} {f : α → α} {xs : Array α} (same : xs = xs.map f) {x : α}
    (member : x ∈ xs) : f x = x := by
  obtain ⟨i,found⟩ := Array.mem_iff_getElem?.mp member
  have image := congrArg (fun ys : Array α => ys[i]?) same
  rw [Array.getElem?_map,found,Option.map_some] at image
  exact (Option.some.inj image).symm

/-- A store that is its own renaming holds nothing that is renamed. -/
theorem Store.Renamed.fixed {s : Store} {number : Nat → Nat} (renamed : s.Renamed ⟨id,number⟩ s)
    {v : Value} (holds : s.Holds v) : v.rename ⟨id,number⟩ = v := by
  cases holds with
  | @bound f name _ found =>
    have image : s.binding? f name = _ := renamed.bindings f name
    rw [found,Option.map_some] at image
    exact (Option.some.inj image).symm
  | part found side =>
    have image := fixed_of_map renamed.pairs (Array.mem_of_getElem? found)
    rcases side with rfl | rfl
    · exact congrArg Pair.head image
    · exact congrArg Pair.tail image
  | item found member =>
    exact fixed_of_map (fixed_of_map renamed.vectors (Array.mem_of_getElem? found)).symm member

/-- The mirror in which frames stay. -/
def Mirror.renumbering {number : Nat → Nat} (injective : Function.Injective number) (limit : Nat) :
    Mirror where
  frame := id
  number := number
  limit := limit
  aside _ := none
  frame_injective := Function.injective_id
  number_injective := injective

/-- A renaming that leaves what a store holds as it is has only to see to the frames. -/
theorem Store.Renamed.of_fixed {r : Renaming} {s t : Store}
    (fixed : ∀ {v}, s.Holds v → v.rename r = v)
    (parents : ∀ f, t.parent? (r.frame f) = (s.parent? f).map (Option.map r.frame))
    (bindings : ∀ f name, t.binding? (r.frame f) name = s.binding? f name)
    (pairs : t.pairs = s.pairs) (vectors : t.vectors = s.vectors) : s.Renamed r t := by
  have same {v : Value} (holds : s.Holds v) : v.rename r = v.rename .refl := by
    rw [Value.rename_refl]
    exact fixed holds
  refine ⟨parents,?_,?_,?_⟩
  · intro f name
    rw [bindings,map_binding_congr same,Value.rename_refl,Option.map_id]
    rfl
  · rw [pairs,map_pairs_congr same,Pair.rename_refl,Array.map_id]
  · rw [vectors,map_vectors_congr same,Value.rename_refl,Array.map_id_fun,Array.map_id]

/-- Such a mirror shows the store itself, with another number to be given out next. -/
theorem Store.Grounded.shows_renumbering {s : Store} (grounded : s.Grounded) {number : Nat → Nat}
    (injective : Function.Injective number) {limit fresh : Nat}
    (fixed : ∀ {v}, s.Holds v → v.rename ⟨id,number⟩ = v)
    (next : ∀ {k}, s.fresh + k < limit → number (s.fresh + k) = fresh + k) :
    (Mirror.renumbering injective limit).Shows s { s with fresh } := by
  refine ⟨.of_fixed fixed ?_ (fun _ _ => rfl) rfl rfl,fun _ => rfl,next,?_,?_⟩
  · intro f
    change s.parent? f = (s.parent? f).map (Option.map id)
    rw [Option.map_id,Option.map_id]
    rfl
  · intro f parent known
    exact ⟨grounded.parents known,grounded.parents known⟩
  · intro g apart
    exact (apart g rfl).elim

/-- The mirror in which all numbers from `n` on are moved. -/
abbrev Mirror.skipping (n : Nat) : Mirror := .renumbering (skip_injective n) n

/-- Whatever does the same in every mirror makes well-formed stores of well-formed ones. -/
theorem Eval.Mirrors.wellFormed {α : Type} {x : Eval α} {f : Nat → α → α} {s : State}
    (mirrors : ∀ n, Eval.Mirrors (.skipping n) (f n) x x) (wellFormed : s.store.WellFormed)
    (grounded : (x.after s).store.Grounded) : (x.after s).store.WellFormed := by
  let n := (x.after s).store.fresh
  have older : s.store.fresh ≤ n := ((mirrors n).older s).fresh
  have start : (Mirror.skipping n).Shows s.store s.store :=
    wellFormed.toGrounded.shows_renumbering (skip_injective n)
      (fun holds => ((wellFormed.numbers holds).mono older).fixed skip_of_lt) skip_of_lt
  have last := (mirrors n).shows_after start ⟨grounded.parents,Nat.le_refl _⟩
  exact ⟨grounded,fun holds => Value.numbered_of_skip (last.toRenamed.fixed holds)⟩

/-! Sessions. -/

/-- The step names only what there is in the state. -/
def Step.Sound (s : State) : Step → Prop
  | define env _ value => env.Within s.store.frames.size ∧ value.Within s.store.frames.size ∧
      value.Numbered s.store.fresh
  | step => step.Present s

theorem Step.Sound.present {step : Step} {s : State} (sound : step.Sound s) : step.Present s := by
  cases step with
  | define => exact ⟨sound.1,sound.2.1⟩
  | evaluate | child | install | remove => exact sound

mutual

theorem Node.le_label (next : Nat) : (n : Node) → next ≤ (n.label next).2
  | string .. => Nat.le_succ next
  | quote _ inner _ => inner.le_label next
  | list items _ => le_labelAll next items
  | char .. | boolean .. | number .. | symbol .. | dot _ | sharp _ => Nat.le_refl next

theorem Node.le_labelAll (next : Nat) : (ns : List Node) → next ≤ (labelAll next ns).2
  | [] => Nat.le_refl next
  | n :: ns => (n.le_label next).trans (le_labelAll _ ns)

end

namespace Store.WellFormed

variable {s : Store} (wellFormed : s.WellFormed)
include wellFormed

theorem raise {fresh : Nat} (le : s.fresh ≤ fresh) : { s with fresh }.WellFormed :=
  ⟨(wellFormed.toGrounded.fresh fresh).grounded,
    fun holds => (wellFormed.numbers (holds_fresh holds)).mono le⟩

theorem newFrame {f : FrameId} (present : f.Within s.frames.size) :
    (s.newFrame (some f)).2.WellFormed :=
  ⟨(wellFormed.toGrounded.newFrame present).grounded,
    fun holds => wellFormed.numbers (holds_newFrame holds)⟩

theorem define (f : FrameId) (name : String) {v : Value} (within : v.Within s.frames.size)
    (numbered : v.Numbered s.fresh) : (s.define f name v).WellFormed := by
  refine ⟨(wellFormed.toGrounded.define f name within).grounded,fun holds => ?_⟩
  rcases holds_define holds with rfl | old
  · exact numbered
  · exact wellFormed.numbers old

end Store.WellFormed

theorem Program.run_mirrors {m : Mirror} {ev other : Evaluator} (mirrors : Evaluator.Mirrors m ev other)
    (p : Program) (env : FrameId) :
    Eval.Mirrors m m.value (p.run ev env) (p.run other (m.frame env)) := by
  rw [run,run]
  split
  · exact .fail _
  · exact mirrors.body env p.forms

/-- Taking a text in gives out numbers for its strings, and what is evaluated then does the same in
every mirror. -/
theorem Step.run_wellFormed {step : Step} {s : State} (wellFormed : s.store.WellFormed)
    (sound : step.Sound s) : (step.run s).store.WellFormed := by
  have grounded := (Step.run_leads wellFormed.toGrounded sound.present).grounded
  cases step with
  | evaluate text name env fuel =>
    cases parsed : Program.parse text name with
    | error e =>
      have same : (Step.evaluate text name env fuel).run s = s := by
        simp only [run,Eval.after,MiniScheme.evaluate,bind,EStateM.bind,Program.read_error parsed]
      rwa [same]
    | ok p =>
      obtain ⟨store,tracers⟩ := s
      let ev := Evaluator.ofFuel fuel
      let loaded := store.load p
      have same : (Step.evaluate text name env fuel).run ⟨store,tracers⟩ =
          (loaded.1.run ev env >>= ev.force).after ⟨loaded.2,tracers⟩ := by
        simp only [run,Eval.after,MiniScheme.evaluate,bind,EStateM.bind,Program.read,parsed]
        rfl
      rw [same] at grounded ⊢
      have mirrors (n : Nat) : Eval.Mirrors (.skipping n) (Mirror.skipping n).value
          (loaded.1.run ev env >>= ev.force) (loaded.1.run ev env >>= ev.force) :=
        have same := Evaluator.ofFuel_mirrors (.skipping n) fuel
        .bind (Program.run_mirrors same loaded.1 env) same.force
      exact Eval.Mirrors.wellFormed mirrors (wellFormed.raise (Node.le_labelAll _ _)) grounded
  | child parent => exact wellFormed.newFrame sound
  | define env key value => exact wellFormed.define env key sound.2.1 sound.2.2
  | install | remove => exact wellFormed

theorem State.initial_wellFormed : State.initial.store.WellFormed := by
  refine ⟨State.initial_grounded,fun holds => ?_⟩
  obtain ⟨_,rfl⟩ | rfl | ⟨_,rfl⟩ | ⟨_,rfl⟩ := State.initial_holds holds <;> trivial

/-- Every state that a session comes to is well-formed. -/
theorem Reaches.wellFormed {s : State} (reaches : Reaches Step.Sound .initial s) :
    s.store.WellFormed :=
  reaches.keeps (P := fun s => s.store.WellFormed) Step.run_wellFormed State.initial_wellFormed

end MiniScheme
