import MiniScheme.Proofs.Eval.Announcing
import MiniScheme.Proofs.Session.Steps

/-! Tracers over a session. A tracer in place is told every call of every evaluation, in order, and
nothing else that happens changes what it holds. The number that it is known by is never given to
another. -/
namespace MiniScheme

namespace Tracer

/-- The tracer after it is told of calls, first to last. -/
def told (tracer : Tracer) (calls : List CallRecord) : Tracer :=
  calls.foldl (fun tracer call => tracer.note call) tracer

theorem full_told (records : Array CallRecord) (calls : List CallRecord) :
    (full records).told calls = full (records ++ calls) := by
  induction calls generalizing records with
  | nil => simp [told]
  | cons call calls ih => exact (ih (records.push call)).trans (by simp)

/-- Closure calls are kept and uses of transformers counted. -/
theorem callLog_told (kept : Array CallRecord) (uses : Nat) (calls : List CallRecord) :
    (callLog kept uses).told calls = callLog (kept ++ calls.filter (·.kind = .closure))
      (uses + calls.countP (·.kind = .transformer)) := by
  induction calls generalizing kept uses with
  | nil => simp [told]
  | cons call calls ih =>
    have first : (callLog kept uses).told (call :: calls) =
        ((callLog kept uses).note call).told calls := rfl
    rw [first,note]
    split
    next closure => rw [ih]; simp [closure]
    next transformer => rw [ih]; simp [transformer]; omega

end Tracer

namespace Tracers

/-- The tracer in place under a number. -/
def find? (t : Tracers) (id : TracerId) : Option Tracer := t.active.lookup id

theorem find?_note (t : Tracers) (call : CallRecord) (id : TracerId) :
    (t.note call).find? id = (t.find? id).map fun tracer => tracer.note call := by
  obtain ⟨active,next⟩ := t
  simp only [find?,note]
  induction active with
  | nil => rfl
  | cons entry active ih =>
    obtain ⟨other,tracer⟩ := entry
    rw [List.map_cons,List.lookup_cons,List.lookup_cons]
    cases id == other with
    | true => rfl
    | false => exact ih

theorem find?_told (t : Tracers) (calls : List CallRecord) (id : TracerId) :
    (calls.foldl note t).find? id = (t.find? id).map fun tracer => tracer.told calls := by
  induction calls generalizing t with
  | nil => simp [Tracer.told]
  | cons call calls ih =>
    rw [List.foldl_cons,ih,find?_note,Option.map_map]
    rfl

theorem next_told (t : Tracers) (calls : List CallRecord) : (calls.foldl note t).next = t.next := by
  induction calls generalizing t with
  | nil => rfl
  | cons call calls ih => exact ih (t.note call)

theorem find?_install (t : Tracers) (tracer : Tracer) (id : TracerId) :
    (t.install tracer).2.find? id = if id = ⟨t.next⟩ then some tracer else t.find? id := by
  simp only [find?,install,List.lookup_cons,beq_eq_decide]
  split <;> simp_all

theorem find?_remove (t : Tracers) (other id : TracerId) :
    (t.remove other).2.find? id = if id = other then Option.none else t.find? id := by
  obtain ⟨active,next⟩ := t
  simp only [find?,remove]
  induction active with
  | nil => simp
  | cons entry active ih =>
    obtain ⟨key,tracer⟩ := entry
    by_cases same : key = other
    · subst same
      rw [List.filter_cons_of_neg (by simp),ih,List.lookup_cons]
      by_cases key = id <;> grind
    · rw [List.filter_cons_of_pos (by simpa using same),List.lookup_cons,List.lookup_cons,ih]
      grind

/-- To take out what is not in place gives nothing and changes nothing. -/
theorem remove_absent {t : Tracers} {id : TracerId} (absent : t.find? id = .none) :
    t.remove id = (.none,t) := by
  rw [find?,List.lookup_eq_none_iff] at absent
  have all : (t.active.filter fun entry => entry.1 != id) = t.active := by
    rw [List.filter_eq_self]
    intro entry member
    simpa [bne_comm] using absent entry member
  rw [remove,all,List.lookup_eq_none_iff.mpr absent]

end Tracers

namespace Step

/-- The calls that a step performs. -/
def calls : Step → State → List CallRecord
  | evaluate text name env fuel,s => (Task.program text name env).calls fuel s.store
  | child _,_ | define .. ,_ | install _,_ | remove _,_ => []

/-- The number that a step gives out. -/
def issues : Step → State → List TracerId
  | install tracer,s => [(s.install tracer).1]
  | evaluate .. ,_ | child _,_ | define .. ,_ | remove _,_ => []

variable {step : Step} {s : State} {id : TracerId}

theorem evaluate_tracers (text : String) (name : Option String) (env : FrameId) (fuel : Nat)
    (s : State) : ((evaluate text name env fuel).run s).tracers =
      ((evaluate text name env fuel).calls s).foldl Tracers.note s.tracers := by
  have outcome := (Task.program text name env).runAnnouncing_eq Tracers.note fuel s.store s.tracers
  rw [Task.runAnnouncing_note] at outcome
  exact Eval.after_beside outcome

/-! One step. -/

theorem next_run (step : Step) (s : State) :
    (step.run s).tracers.next = s.tracers.next + (step.issues s).length := by
  cases step with
  | evaluate text name env fuel => rw [evaluate_tracers,Tracers.next_told]; rfl
  | child | define | install | remove => rfl

theorem index_of_issues (given : id ∈ step.issues s) : id.index = s.tracers.next := by
  cases step with
  | install tracer => cases List.mem_singleton.mp given; rfl
  | evaluate | child | define | remove => cases given

/-- A tracer in place is told the calls of the step, unless the step takes it out. -/
theorem find?_run (known : id.index < s.tracers.next) (kept : step ≠ .remove id) :
    (step.run s).tracers.find? id =
      (s.tracers.find? id).map fun tracer => tracer.told (step.calls s) := by
  have same : (s.tracers.find? id).map (fun tracer => tracer.told []) = s.tracers.find? id :=
    Option.map_id'
  cases step with
  | evaluate text name env fuel => rw [evaluate_tracers,Tracers.find?_told]
  | child | define => exact same.symm
  | install tracer =>
    have other : id ≠ ⟨s.tracers.next⟩ := by
      rintro rfl
      exact Nat.lt_irrefl _ known
    exact (Tracers.find?_install ..).trans ((if_neg other).trans same.symm)
  | remove taken =>
    have other : id ≠ taken := by
      rintro rfl
      exact kept rfl
    exact (Tracers.find?_remove ..).trans ((if_neg other).trans same.symm)

/-- What is not in place comes into place only under the number that the step gives out. -/
theorem absent_run (absent : s.tracers.find? id = none) (fresh : id ∉ step.issues s) :
    (step.run s).tracers.find? id = none := by
  cases step with
  | evaluate text name env fuel => rw [evaluate_tracers,Tracers.find?_told,absent]; rfl
  | child | define => exact absent
  | install tracer =>
    have other : id ≠ ⟨s.tracers.next⟩ := by simpa [issues,State.install,Tracers.install] using fresh
    exact (Tracers.find?_install ..).trans ((if_neg other).trans absent)
  | remove taken =>
    refine (Tracers.find?_remove ..).trans ?_
    split
    · rfl
    · exact absent

/-! Any number of steps. -/

theorem find?_runAll {steps : List Step} (known : id.index < s.tracers.next)
    (kept : .remove id ∉ steps) :
    (runAll steps s).tracers.find? id =
      (s.tracers.find? id).map fun tracer => tracer.told (along calls steps s) := by
  induction steps generalizing s with
  | nil => exact Option.map_id'.symm
  | cons step steps ih =>
    rw [List.mem_cons,not_or] at kept
    obtain ⟨here,later⟩ := kept
    have grown := next_run step s
    rw [runAll,ih (by omega) later,find?_run known (Ne.symm here),Option.map_map]
    simp only [along,Tracer.told,List.foldl_append]
    rfl

theorem absent_runAll {steps : List Step} (absent : s.tracers.find? id = none)
    (fresh : id ∉ along issues steps s) : (runAll steps s).tracers.find? id = none := by
  induction steps generalizing s with
  | nil => exact absent
  | cons step steps ih =>
    rw [along,List.mem_append,not_or] at fresh
    obtain ⟨here,later⟩ := fresh
    exact ih (absent_run absent here) later

theorem next_le_of_issues {steps : List Step} (given : id ∈ along issues steps s) :
    s.tracers.next ≤ id.index := by
  induction steps generalizing s with
  | nil => cases given
  | cons step steps ih =>
    have grown := next_run step s
    rcases List.mem_append.mp given with here | later
    · exact (index_of_issues here).ge
    · have bound := ih later
      omega

theorem next_le_runAll (steps : List Step) (s : State) :
    s.tracers.next ≤ (runAll steps s).tracers.next := by
  induction steps generalizing s with
  | nil => exact Nat.le_refl _
  | cons step steps ih =>
    have grown := next_run step s
    have rest := ih (step.run s)
    rw [runAll]
    omega

theorem lt_next_of_issues {steps : List Step} (given : id ∈ along issues steps s) :
    id.index < (runAll steps s).tracers.next := by
  induction steps generalizing s with
  | nil => cases given
  | cons step steps ih =>
    rcases List.mem_append.mp given with here | later
    · have index := index_of_issues here
      have one := List.length_pos_of_mem here
      have grown := next_run step s
      have rest := next_le_runAll steps (step.run s)
      rw [runAll]
      omega
    · exact ih later

/-- No number is given out twice. -/
theorem nodup_issues (steps : List Step) (s : State) : (along issues steps s).Nodup := by
  induction steps generalizing s with
  | nil => exact List.nodup_nil
  | cons step steps ih =>
    refine List.nodup_append.mpr ⟨?_,ih _,?_⟩
    · cases step <;> simp [issues]
    · rintro id here _ later rfl
      have index := index_of_issues here
      have bound := next_le_of_issues later
      have grown := next_run step s
      have given := List.length_pos_of_mem here
      omega

/-! Whole sessions. -/

theorem remove_absent (absent : s.tracers.find? id = none) : s.remove id = (none,s) := by
  rw [State.remove,Tracers.remove_absent absent]

theorem remove_unknown {steps : List Step} (unknown : id ∉ along issues steps .initial) :
    (runAll steps .initial).remove id = (none,runAll steps .initial) :=
  remove_absent (absent_runAll rfl unknown)

/-- From its installation on, a tracer holds what it held and the calls performed since. -/
theorem find?_installed (tracer : Tracer) {steps : List Step}
    (kept : .remove (s.install tracer).1 ∉ steps) :
    (runAll steps (s.install tracer).2).tracers.find? (s.install tracer).1 =
      some (tracer.told (along calls steps (s.install tracer).2)) := by
  have placed : (s.install tracer).2.tracers.find? (s.install tracer).1 = some tracer :=
    (Tracers.find?_install ..).trans (if_pos rfl)
  rw [find?_runAll (Nat.lt_succ_self _) kept,placed,Option.map_some]

/-- A number once given out and then removed stays without a tracer. -/
theorem absent_removed {steps : List Step} (known : id.index < s.tracers.next) :
    (runAll steps (s.remove id).2).tracers.find? id = none := by
  have taken : (s.remove id).2.tracers.find? id = none :=
    (Tracers.find?_remove ..).trans (if_pos rfl)
  exact absent_runAll taken fun given => Nat.not_lt.mpr (next_le_of_issues given) known

/-- Whatever is in place was given its number before. -/
theorem known_of_find? {steps : List Step} {tracer : Tracer}
    (found : (runAll steps .initial).tracers.find? id = some tracer) :
    id.index < (runAll steps .initial).tracers.next := by
  refine lt_next_of_issues ?_
  by_contra unknown
  rw [absent_runAll rfl unknown] at found
  contradiction

end Step

open Step

/-- Tracing observes everything and influences nothing. A task comes to the same, in the same store,
whatever tracers are in place, and tells each of them the calls it performs; these are all calls of
closures and uses of transformers and nothing else, since any other way of announcing them announces
the same. Over any steps of a session, a tracer holds exactly the calls performed since its
installation, until it is removed; then its number is never in use again. A log and a recorder that
are in place together agree. Numbers are given out once, and to remove one that was not given out
does nothing. -/
theorem tracing_observes_everything :
    (∀ (fuel : Nat) (task : Task) (store : Store) (tracers : Tracers),
      task.run fuel ⟨store,tracers⟩ =
          ((task.run fuel).alone store).beside ((task.calls fuel store).foldl Tracers.note tracers) ∧
        ∀ tell, task.runAnnouncing tell fuel ⟨store,tracers⟩ =
          ((task.run fuel).alone store).beside ((task.calls fuel store).foldl tell tracers)) ∧
    (∀ (before during after : List Step) (tracer : Tracer),
      let installed := (runAll before .initial).install tracer
      .remove installed.1 ∉ during →
        let last := runAll during installed.2
        last.tracers.find? installed.1 = some (tracer.told (along calls during installed.2)) ∧
          (last.remove installed.1).1 = last.tracers.find? installed.1 ∧
          let later := runAll after (last.remove installed.1).2
          later.remove installed.1 = (none,later)) ∧
    (∀ (before during : List Step) (log recorder : TracerId),
      let first := runAll before .initial
      first.tracers.find? log = some (.callLog #[] 0) →
      first.tracers.find? recorder = some (.full #[]) →
      .remove log ∉ during → .remove recorder ∉ during →
        ∃ calls uses records,
          (runAll during first).tracers.find? log = some (.callLog calls uses) ∧
          (runAll during first).tracers.find? recorder = some (.full records) ∧
          calls = records.filter (·.kind = .closure) ∧
          uses = records.countP (·.kind = .transformer)) ∧
    ∀ steps : List Step, (along issues steps .initial).Nodup ∧
      ∀ id ∉ along issues steps .initial,
        (runAll steps .initial).remove id = (none,runAll steps .initial) := by
  refine ⟨?_,?_,?_,fun steps => ⟨nodup_issues steps _,fun _ => remove_unknown⟩⟩
  · intro fuel task store tracers
    have told := task.runAnnouncing_eq Tracers.note fuel store tracers
    rw [Task.runAnnouncing_note] at told
    exact ⟨told,fun tell => task.runAnnouncing_eq tell fuel store tracers⟩
  · intro before during after tracer installed kept last
    refine ⟨find?_installed tracer kept,rfl,?_⟩
    have known : installed.1.index < installed.2.tracers.next := Nat.lt_succ_self _
    have grown := next_le_runAll during installed.2
    exact remove_absent (absent_removed (known.trans_le grown))
  · intro before during log recorder first logFound recorderFound logKept recorderKept
    have logTold := find?_runAll (known_of_find? logFound) logKept
    have recorderTold := find?_runAll (known_of_find? recorderFound) recorderKept
    rw [logFound,Option.map_some,Tracer.callLog_told] at logTold
    rw [recorderFound,Option.map_some,Tracer.full_told] at recorderTold
    refine ⟨_,_,_,logTold,recorderTold,?_,?_⟩
    · simp
    · simp

/-- A recorder is in place, beside a log, while a transformer is used whose body calls a closure, and
while a call fails for want of an argument. -/
theorem tracing_observes_everything_failure :
    ∃ during : List Step,
      let installed := (runAll [.install (.callLog #[] 0)] .initial).install (.full #[])
      .remove ⟨0⟩ ∉ during ∧ .remove installed.1 ∉ during ∧
        (runAll during installed.2).tracers.find? installed.1 = some (.full
          #[⟨.transformer,⟨1,68,none⟩,1⟩,⟨.closure,⟨1,42,none⟩,1⟩,⟨.closure,⟨1,74,none⟩,0⟩]) ∧
        (runAll during installed.2).tracers.find? ⟨0⟩ = some (.callLog
          #[⟨.closure,⟨1,42,none⟩,1⟩,⟨.closure,⟨1,74,none⟩,0⟩] 1) := by
  let text := "(define-syntax m (syntax-rules () ((m x) (f x)))) (define (f x) x) (m 1) (f)"
  have performed : along calls [.evaluate text none Global.frame 9]
      ((runAll [.install (.callLog #[] 0)] .initial).install (.full #[])).2 =
        [⟨.transformer,⟨1,68,none⟩,1⟩,⟨.closure,⟨1,42,none⟩,1⟩,⟨.closure,⟨1,74,none⟩,0⟩] := by
    decide +kernel
  obtain ⟨-,holds,agree,-⟩ := tracing_observes_everything
  obtain ⟨recorded,-⟩ := holds [.install (.callLog #[] 0)] [.evaluate text none Global.frame 9] []
    (.full #[]) (by simp)
  rw [performed] at recorded
  obtain ⟨calls,uses,records,logged,again,rfl,rfl⟩ :=
    agree [.install (.callLog #[] 0),.install (.full #[])] [.evaluate text none Global.frame 9] ⟨0⟩ ⟨1⟩
      rfl rfl (by simp) (by simp)
  cases again.symm.trans recorded
  exact ⟨_,by simp,by simp,recorded,logged⟩

end MiniScheme
