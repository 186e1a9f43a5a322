import MiniScheme.Proofs.Eval.Grounded
import MiniScheme.Proofs.Session.Steps

/-! The frames of a session. Whatever a host evaluates, binds or makes a child of, frames stay a
forest whose links never change, so what a definition changes can be read off the chains of
parents. -/
namespace MiniScheme

open Store

/-- The step names only frames of the state, and binds only what belongs to such frames. -/
def Step.Present (s : State) : Step → Prop
  | evaluate _ _ env _ => env.Within s.store.frames.size
  | child parent => parent.Within s.store.frames.size
  | define env _ value => env.Within s.store.frames.size ∧ value.Within s.store.frames.size
  | install _ | remove _ => True

theorem Eval.Sound.after {α : Type} {A : Nat → α → Prop} {x : Eval α} {s : Store} {state : State}
    (sound : Sound s A (x state)) : s.Leads (x.after state).store := by
  rw [Eval.after]
  generalize x state = outcome at sound ⊢
  cases sound with
  | ok leads _ => exact leads
  | error leads => exact leads

/-- One step keeps the frames of a grounded store and their parents. -/
theorem Step.run_leads {step : Step} {s : State} (grounded : s.store.Grounded)
    (present : step.Present s) : s.store.Leads (step.run s).store := by
  cases step with
  | evaluate text name env fuel =>
    have keeps := evaluate_keeps (Evaluator.ofFuel_keeps fuel) text name present
    exact (keeps s grounded (Nat.le_refl _)).after
  | child parent => exact grounded.newFrame present
  | define env key value => exact grounded.define env key present.2
  | install | remove => exact grounded.leads

/-- At first there are only built-in names. -/
theorem State.initial_holds {v : Value} (holds : State.initial.store.Holds v) :
    (∃ n, v = .number n) ∨ v = .nil ∨ (∃ form, v = .form form) ∨ ∃ p, v = .primitive p := by
  cases holds with
  | @bound f name _ found =>
    obtain ⟨_ | index⟩ := f
    · obtain ⟨before,after,whole,-⟩ := List.lookup_eq_some_iff.mp found
      have whole : Global.bindings = before ++ (name,v) :: after := whole
      have member : (name,v) ∈ Global.bindings := whole ▸ List.mem_append_cons_self
      rw [Global.bindings,List.mem_append,List.mem_append] at member
      rcases member with (constant | form) | primitive
      · simp only [List.mem_cons,List.not_mem_nil,or_false,Prod.mk.injEq] at constant
        rcases constant with ⟨-,rfl⟩ | ⟨-,rfl⟩
        · exact .inl ⟨_,rfl⟩
        · exact .inr (.inl rfl)
      · obtain ⟨f,-,same⟩ := List.mem_map.mp form
        cases same
        exact .inr (.inr (.inl ⟨f,rfl⟩))
      · obtain ⟨p,-,same⟩ := List.mem_map.mp primitive
        cases same
        exact .inr (.inr (.inr ⟨p,rfl⟩))
    · cases found
  | part found => cases found
  | item found => cases found

theorem State.initial_grounded : State.initial.store.Grounded := by
  refine ⟨?_,?_⟩
  · rintro ⟨_ | index⟩ parent known <;> cases known
  · intro v holds
    obtain ⟨_,rfl⟩ | rfl | ⟨_,rfl⟩ | ⟨_,rfl⟩ := State.initial_holds holds <;> trivial

/-- Any steps keep the frames of a grounded store and their parents. -/
theorem Reaches.leads {s t : State} (reaches : Reaches Step.Present s t)
    (grounded : s.store.Grounded) : s.store.Leads t.store :=
  reaches.keeps (P := fun t => s.store.Leads t.store)
    (fun before present => before.trans (Step.run_leads before.grounded present)) grounded.leads

/-- Frames form a forest and definitions are local. In every state that steps lead to from the
initial one, the parent of a frame is an older frame, as frames are numbered in the order in which
they are made, and no further steps change it. So the parents of a frame lead to an outermost one,
and a name is looked up along them. A definition in `f` is what a frame finds under the name if `f`
comes first on its chain among `f` and the frames that bind the name; and nothing else changes. -/
theorem Reaches.frames_form_forest {s : State} (reaches : Reaches Step.Present .initial s) :
    (∀ f parent, s.store.parent? f = some (some parent) →
      parent.index < f.index ∧ (s.store.parent? parent).isSome) ∧
    (∀ t, Reaches Step.Present s t →
      ∀ f parent, s.store.parent? f = some parent → t.store.parent? f = some parent) ∧
    ∀ g, (s.store.parent? g).isSome → ∃ chain, s.store.Ancestry g chain ∧
      (∀ key, s.store.lookup g key = chain.findSome? fun h => s.store.binding? h key) ∧
      ∀ f, (s.store.parent? f).isSome → ∀ name value key,
        ((Step.define f name value).run s).store.lookup g key =
          if key = name ∧
              chain.find? (fun h => h = f ∨ (s.store.binding? h name).isSome) = some f then some value
          else s.store.lookup g key := by
  have grounded := (reaches.leads State.initial_grounded).grounded
  refine ⟨?_,fun t further => (further.leads grounded).grows,?_⟩
  · intro f parent known
    have older := grounded.parents known
    have present := isSome_parent?.mp (Option.isSome_of_eq_some known)
    exact ⟨older,isSome_parent?.mpr (older.trans present)⟩
  · intro g present
    refine ⟨s.store.chain g,grounded.ancestry (isSome_parent?.mp present),fun _ => rfl,?_⟩
    intro f here name value key
    have defined : ((Step.define f name value).run s).store = s.store.define f name value := rfl
    rw [defined,Store.lookup,chain_define,findSome?_define (isSome_parent?.mp here),Store.lookup]

/-- A name is bound in a frame between the innermost and the outermost one: definitions there are
seen from the innermost frame, and those in the outermost one are not. -/
theorem Reaches.frames_form_forest_shadowed :
    ∃ s, Reaches Step.Present .initial s ∧ s.store.Ancestry ⟨2⟩ [⟨2⟩,⟨1⟩,⟨0⟩] ∧
      ((Step.define ⟨1⟩ "x" .nil).run s).store.lookup ⟨2⟩ "x" = some .nil ∧
      ((Step.define ⟨0⟩ "x" .nil).run s).store.lookup ⟨2⟩ "x" = s.store.lookup ⟨2⟩ "x" := by
  let bound := (Step.evaluate "(define x 1)" none ⟨1⟩ 9).run ((Step.child ⟨0⟩).run .initial)
  have outer : Reaches Step.Present .initial ((Step.child ⟨0⟩).run .initial) :=
    .step (.child ⟨0⟩) .refl Nat.zero_lt_one
  have middle : Reaches Step.Present .initial bound :=
    .step (.evaluate "(define x 1)" none ⟨1⟩ 9) outer Nat.one_lt_two
  have size : 1 < bound.store.frames.size := by decide +kernel
  have reaches : Reaches Step.Present .initial ((Step.child ⟨1⟩).run bound) :=
    .step (.child ⟨1⟩) middle size
  have ancestry : ((Step.child ⟨1⟩).run bound).store.Ancestry ⟨2⟩ [⟨2⟩,⟨1⟩,⟨0⟩] :=
    .inner (by decide +kernel) (.inner (by decide +kernel) (.outermost (by decide +kernel)))
  obtain ⟨-,-,chains⟩ := reaches.frames_form_forest
  obtain ⟨chain,found,-,defined⟩ := chains ⟨2⟩ (by decide +kernel)
  cases found.unique ancestry
  refine ⟨_,reaches,ancestry,?_,?_⟩
  · rw [defined ⟨1⟩ (by decide +kernel),if_pos (by decide +kernel)]
  · rw [defined ⟨0⟩ (by decide +kernel),if_neg (by decide +kernel)]

end MiniScheme
