import MiniScheme.Proofs.Eval.Unwinding
import MiniScheme.Proofs.Prompt.Once

/-! The calls that an evaluation performs. To say which they are, evaluation is also run with other
ways of announcing a call than telling the tracers. Whatever an announcement does to the tracers,
the same calls are announced in the same order, and they are all that reaches the tracers; value,
failure and store do not depend on any of it. -/
namespace MiniScheme

/-- What an announced call does to the tracers. -/
abbrev Announcement := Tracers → CallRecord → Tracers

namespace Eval

/-- What a computation ends in, tracers left aside. -/
abbrev Bare (α : Type) := EStateM.Result Failure Store α

variable {α β : Type}

/-- What a computation comes to from a store if no tracer is in place. -/
def alone (x : Eval α) (store : Store) : Bare α :=
  match x ⟨store,.none⟩ with
  | .ok a next => .ok a next.store
  | .error failure next => .error failure next.store

def Bare.beside (bare : Bare α) (tracers : Tracers) : Outcome α :=
  match bare with
  | .ok a store => .ok a ⟨store,tracers⟩
  | .error failure store => .error failure ⟨store,tracers⟩

section Beside

variable {x : Eval α} {bare : Bare α} {tracers : Tracers}

theorem alone_beside {store : Store} (outcome : x ⟨store,.none⟩ = bare.beside tracers) :
    x.alone store = bare := by
  rw [alone,outcome]
  cases bare <;> rfl

theorem after_beside {state : State} (outcome : x state = bare.beside tracers) :
    (x.after state).tracers = tracers := by
  rw [Eval.after,outcome]
  cases bare <;> rfl

end Beside

def announce (tell : Announcement) (call : CallRecord) : Eval Unit := fun state =>
  match state with
  | ⟨store,tracers⟩ => .ok () ⟨store,tell tracers call⟩

/-- From any store both computations come to the same and announce the same calls, each in its own
way. -/
def Announce (first second : Announcement) (α : Type) (x y : Eval α) : Prop :=
  ∀ store, ∃ (bare : Bare α) (calls : List CallRecord), ∀ tracers,
    x ⟨store,tracers⟩ = bare.beside (calls.foldl first tracers) ∧
      y ⟨store,tracers⟩ = bare.beside (calls.foldl second tracers)

namespace Announce

variable {first second : Announcement}

theorem announce (call : CallRecord) :
    Announce first second Unit (Eval.announce first call) (Eval.announce second call) :=
  fun store => ⟨.ok () store,[call],fun _ => ⟨rfl,rfl⟩⟩

theorem throw (failure : Failure) :
    Announce first second α (MonadExcept.throw failure) (MonadExcept.throw failure) :=
  fun store => ⟨.error failure store,[],fun _ => ⟨rfl,rfl⟩⟩

/-- The calls of a sequence are those of its first part and, if that succeeds, of its second. -/
theorem bind {x y : Eval α} {f g : α → Eval β} (start : Announce first second α x y)
    (next : ∀ a, Announce first second β (f a) (g a)) :
    Announce first second β (x >>= f) (y >>= g) := by
  intro store
  obtain ⟨bare,calls,same⟩ := start store
  cases bare with
  | error failure middle =>
    refine ⟨.error failure middle,calls,fun tracers => ?_⟩
    simp only [Bind.bind,EStateM.bind,same tracers,Bare.beside]
    trivial
  | ok a middle =>
    obtain ⟨rest,more,follow⟩ := next a middle
    refine ⟨rest,calls ++ more,fun tracers => ?_⟩
    simp only [Bind.bind,EStateM.bind,same tracers,Bare.beside,List.foldl_append]
    exact ⟨(follow _).1,(follow _).2⟩

theorem traced {x y : Eval α} (pos : Position) (env : FrameId) (inside : Announce first second α x y) :
    Announce first second α (Eval.traced pos env x) (Eval.traced pos env y) := by
  intro store
  obtain ⟨bare,calls,same⟩ := inside store
  cases bare with
  | ok a next =>
    refine ⟨.ok a next,calls,fun tracers => ?_⟩
    simp only [Eval.traced,same tracers,Bare.beside]
    trivial
  | error failure next =>
    refine ⟨.error (failure.passThrough pos env) next,calls,fun tracers => ?_⟩
    simp only [Eval.traced,same tracers,Bare.beside]
    trivial

theorem compatible : Compatible (Announce first second) where
  pure a := fun store => ⟨.ok a store,[],fun _ => ⟨rfl,rfl⟩⟩
  bind := .bind
  onStore f := fun store => ⟨.ok (f store).1 (f store).2,[],fun _ => ⟨rfl,rfl⟩⟩
  changeStore f := fun store => ⟨.ok () (f store),[],fun _ => ⟨rfl,rfl⟩⟩
  readStore f := fun store => ⟨.ok (f store) store,[],fun _ => ⟨rfl,rfl⟩⟩
  running _ _ := .throw _
  late _ _ := .throw _
  outOfFuel := .throw _

end Announce
end Eval

namespace Evaluator

open Eval

/-- A closure is called: its parameters are bound once the call is announced. -/
def callAnnouncing (tell : Announcement) (ev : Evaluator) (c : Closure) (args : List Value)
    (pos : Position) : Eval Value := do
  let env ← Eval.newChild c.env
  announce tell ⟨.closure,pos,args.length⟩
  Closure.bindParams c.params args env pos
  ev.body env c.body

/-- Closures are announced when their arguments are known, transformers before any rule is tried,
and nothing else is announced. -/
def operateAnnouncing (tell : Announcement) (ev : Evaluator) (op : Value) (ops : List Operand)
    (env : FrameId) (pos : Position) : Eval Value :=
  match op with
  | .closure c => do ev.callAnnouncing tell c (← Operand.evalAll ev env ops) pos
  | .transformer t => do
    announce tell ⟨.transformer,pos,ops.length⟩
    t.expand ev ops env pos
  | other => ev.operate other ops env pos

def applyAnnouncing (tell : Announcement) (ev : Evaluator) (op : Value) (ops : List Operand)
    (env : FrameId) (pos : Position) : Eval Value :=
  traced pos env (ev.operateAnnouncing tell op ops env pos)

/-- A step of evaluation in which only the announcement of calls is replaced. -/
def announcingStep (tell : Announcement) (ev : Evaluator) (n : Node) (env : FrameId) : Eval Value :=
  match n with
  | .list (operator :: args) pos => do
    let op ← ev.force (← ev.eval operator env)
    let ops ← Operand.collect env args
    ev.applyAnnouncing tell op ops env pos
  | other => ev.evalStep other env

/-- The evaluator of bounded depth that announces calls by `tell`. -/
def announcing (tell : Announcement) : Nat → Evaluator
  | 0 => exhausted
  | fuel + 1 =>
    ⟨fun n env => (announcing tell fuel).announcingStep tell n env,
      fun v => (announcing tell fuel).forceStep v⟩

theorem applyAnnouncing_note (ev : Evaluator) : ev.applyAnnouncing Tracers.note = ev.apply := by
  funext op ops env pos
  unfold applyAnnouncing operateAnnouncing
  split <;> rfl

theorem announcingStep_note (ev : Evaluator) : ev.announcingStep Tracers.note = ev.evalStep := by
  funext n env
  unfold announcingStep
  rw [applyAnnouncing_note]
  split <;> rfl

/-- The evaluator announces calls by telling the tracers. -/
theorem announcing_note (fuel : Nat) : announcing Tracers.note fuel = ofFuel fuel := by
  induction fuel with
  | zero => rfl
  | succ fuel ih => rw [announcing,announcingStep_note,ih,ofFuel]

variable {first second : Announcement} {ev other : Evaluator}

theorem applyAnnouncing_announce (related : Related (Announce first second) ev other) (op : Value)
    (ops : List Operand) (env : FrameId) (pos : Position) :
    Announce first second Value (ev.applyAnnouncing first op ops env pos)
      (other.applyAnnouncing second op ops env pos) := by
  have h : Compatible (Announce first second) := Announce.compatible
  refine Announce.traced pos env ?_
  unfold operateAnnouncing
  split
  next c =>
    refine h.bind (h.operands related env ops) fun args => ?_
    exact h.bind (h.onStore _) fun inner => h.bind (.announce _) fun _ =>
      h.bind (h.bindParams c.params args inner pos) fun _ => h.body related inner c.body
  next t => exact h.bind (.announce _) fun _ => h.expand related t ops env pos
  next noClosure noTransformer => exact h.operate_plain related noClosure noTransformer ops env pos

/-- Two ways of announcing lead to the same calls, at any depth. -/
theorem announcing_announce (first second : Announcement) (fuel : Nat) :
    Related (Announce first second) (announcing first fuel) (announcing second fuel) := by
  have h : Compatible (Announce first second) := Announce.compatible
  induction fuel with
  | zero => exact ⟨fun _ _ => h.outOfFuel,fun _ => h.outOfFuel⟩
  | succ fuel ih =>
    refine ⟨fun n env => ?_,h.forceStep ih⟩
    simp only [announcing,announcingStep]
    split
    next operator args pos =>
      exact h.bind (ih.eval operator env) fun _ => h.bind (ih.force _) fun op =>
        h.bind (h.collect (h.splice fun _ _ => Announce.traced) env args) fun ops => applyAnnouncing_announce ih op ops env pos
    next plain => exact h.evalStep_plain plain env

end Evaluator

namespace Tracers

/-- A recorder that nothing else is beside. -/
def recorder : Tracers := ⟨[(⟨0⟩,.full #[])],1⟩

/-- What the recorders among the tracers hold. -/
def records (t : Tracers) : List CallRecord :=
  t.active.flatMap fun entry =>
    match entry.2 with
    | .full records => records.toList
    | .callLog _ _ => []

theorem records_recorder (calls : List CallRecord) : (calls.foldl note recorder).records = calls := by
  have more (calls : List CallRecord) (before : Array CallRecord) :
      (calls.foldl note ⟨[(⟨0⟩,.full before)],1⟩).records = before.toList ++ calls := by
    induction calls generalizing before with
    | nil => simp [records]
    | cons call calls ih =>
      have told := ih (before.push call)
      rw [Array.toList_push,List.append_assoc] at told
      exact told
  exact more calls #[]

end Tracers

namespace Task

open Eval Evaluator

/-- A task whose calls are announced by `tell`. -/
def runAnnouncing (tell : Announcement) (fuel : Nat) : Task → Eval Value
  | eval n env => (announcing tell fuel).eval n env
  | force v => (announcing tell fuel).force v
  | apply op ops env pos => (announcing tell fuel).applyAnnouncing tell op ops env pos
  | program text source env => evaluate (announcing tell fuel) text source env

theorem runAnnouncing_note (fuel : Nat) (task : Task) :
    task.runAnnouncing Tracers.note fuel = task.run fuel := by
  cases task <;> simp only [runAnnouncing,run,announcing_note,applyAnnouncing_note]

theorem run_announce (first second : Announcement) (fuel : Nat) (task : Task) :
    Announce first second Value (task.runAnnouncing first fuel) (task.runAnnouncing second fuel) := by
  have h : Compatible (Announce first second) := Announce.compatible
  have related := announcing_announce first second fuel
  cases task with
  | eval n env => exact related.eval n env
  | force v => exact related.force v
  | apply op ops env pos => exact applyAnnouncing_announce related op ops env pos
  | program text source env =>
    have reading : Announce first second Program (Program.read text source)
        (Program.read text source) := by
      refine h.bind ?_ fun p => h.onStore _
      cases Program.parse text source with
      | ok p => exact h.pure p
      | error e => exact .throw _
    refine h.bind reading fun p => h.bind ?_ related.force
    unfold Program.run
    split
    · exact h.fail _
    · exact h.body related env p.forms

/-- The calls that a task performs from a store, in order: what a lone recorder takes down. -/
def calls (fuel : Nat) (task : Task) (store : Store) : List CallRecord :=
  ((task.run fuel).after ⟨store,.recorder⟩).tracers.records

/-- However calls are announced, a task comes to what it comes to without tracers, and announces
its calls in order and nothing else. -/
theorem runAnnouncing_eq (tell : Announcement) (fuel : Nat) (task : Task) (store : Store)
    (tracers : Tracers) :
    task.runAnnouncing tell fuel ⟨store,tracers⟩ =
      ((task.run fuel).alone store).beside ((task.calls fuel store).foldl tell tracers) := by
  obtain ⟨bare,calls,same⟩ := task.run_announce Tracers.note tell fuel store
  rw [runAnnouncing_note] at same
  have taken : task.calls fuel store = calls := by
    rw [Task.calls,after_beside (same .recorder).1,Tracers.records_recorder]
  rw [(same tracers).2,alone_beside (same .none).1,taken]

end Task
end MiniScheme
