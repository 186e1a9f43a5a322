import Mathlib.Data.List.Chain
import MiniScheme.Proofs.Eval.Late
import MiniScheme.Proofs.Node.Marks
import MiniScheme.Prompt

/-! The prompt loop reads text again but evaluates nothing again. Which lines make up a text is
decided by reading alone, a text that waits for more lines changes nothing, and every other text is
evaluated once, from its first form to its last or to a failure. -/
namespace MiniScheme

/-- The state that a computation leaves behind, with or without a failure. -/
def Eval.after {α : Type} (x : Eval α) (state : State) : State :=
  match x state with
  | .ok _ next => next
  | .error _ next => next

namespace Evaluator

/-- The evaluations that running forms begins, each as its form and the state it starts from. -/
def begun (ev : Evaluator) (env : FrameId) : List Node → State → List (Node × State)
  | [], _ => []
  | n :: ns, state => (n,state) ::
    match ev.eval n env state with
    | .ok _ next => ev.begun env ns next
    | .error _ _ => []

variable (ev : Evaluator) (env : FrameId)

/-- Running forms comes to what the last evaluation it begins comes to. -/
theorem body_begun {forms : List Node} (nonempty : forms ≠ []) (state : State) :
    ∃ last, (ev.begun env forms state).getLast? = some last ∧
      ev.body env forms state = ev.eval last.1 env last.2 := by
  induction forms generalizing state with
  | nil => contradiction
  | cons n ns ih =>
    cases ns with
    | nil =>
      refine ⟨(n,state),?_,rfl⟩
      simp only [begun]
      split <;> rfl
    | cons m ns =>
      cases outcome : ev.eval n env state with
      | ok v next =>
        obtain ⟨last,found,same⟩ := ih (List.cons_ne_nil m ns) next
        refine ⟨last,?_,?_⟩
        · rw [begun,outcome,List.getLast?_cons,found]
          rfl
        · simp only [body,bind,EStateM.bind,outcome,same]
      | error failure next =>
        refine ⟨(n,state),?_,?_⟩
        · rw [begun,outcome]
          rfl
        · simp only [body,bind,EStateM.bind,outcome]

/-- Evaluations begin in the order of the forms, and none begins twice. -/
theorem begun_prefix (forms : List Node) (state : State) :
    (ev.begun env forms state).map Prod.fst <+: forms := by
  induction forms generalizing state with
  | nil => exact List.nil_prefix
  | cons n ns ih =>
    rw [begun,List.map_cons,List.cons_prefix_cons]
    refine ⟨rfl,?_⟩
    split
    · exact ih _
    · exact List.nil_prefix

/-- Each evaluation begins in the state that the one before it ends in. -/
theorem begun_chain (forms : List Node) (state : State) :
    (ev.begun env forms state).IsChain fun former later =>
      ∃ v, ev.eval former.1 env former.2 = .ok v later.2 := by
  induction forms generalizing state with
  | nil => exact List.isChain_nil
  | cons n ns ih =>
    rw [begun]
    split
    next v next outcome =>
      cases ns with
      | nil => exact List.isChain_singleton _
      | cons m ns =>
        have rest := ih next
        rw [begun] at rest ⊢
        exact List.isChain_cons_cons.mpr ⟨⟨v,outcome⟩,rest⟩
    next => exact List.isChain_singleton _

theorem begun_head (forms : List Node) (state : State) :
    (ev.begun env forms state).head? = forms.head?.map fun n => (n,state) := by
  cases forms <;> rfl

end Evaluator

/-- A node without the labels of its strings, which a form gets when it is taken in. -/
def Node.unlabelled (n : Node) : Node := n.mapMarks id fun _ => 0

namespace Program

/-- The forms of a text, if it can be read. -/
def formsOf (name : Option String) (text : String) : List Node :=
  match parse text name with
  | .ok p => p.forms
  | .error _ => []

theorem read_error {text : String} {name : Option String} {e : SyntaxError}
    (failed : parse text name = .error e) (state : State) :
    read text name state = .error (.reading e) state := by
  simp only [read,failed]
  rfl

/-- Taking a program in changes no more than the labels of its strings. -/
theorem read_ok {text : String} {name : Option String} {p : Program}
    (parsed : parse text name = .ok p) (state : State) :
    ∃ loaded next, read text name state = .ok loaded next ∧
      loaded.forms.map Node.unlabelled = p.forms.map Node.unlabelled := by
  obtain ⟨store,tracers⟩ := state
  refine ⟨_,_,by simp only [read,parsed]; rfl,?_⟩
  have labels := Node.mapMarksAll_labelAll (f := id) (g := fun _ => 0) (fun _ _ => rfl) p.forms
    store.fresh
  rwa [Node.mapMarksAll_eq_map,Node.mapMarksAll_eq_map] at labels

end Program

namespace Prompt

/-- Whether a text waits for more lines. Reading alone decides it. -/
def isOpen (name : Option String) (text : String) : Bool :=
  match Program.parse text name with
  | .ok _ => false
  | .error e => e.fault == .unclosedList

/-- How lines are taken in: the texts they make up, and what is pending behind the last. -/
structure Reading where
  texts : List String
  pending : String

def reading (name : Option String) : (pending : String) → List String → Reading
  | pending, [] => ⟨[],pending⟩
  | pending, line :: lines =>
    let text := pending ++ line ++ "\n"
    if isOpen name text then reading name text lines
    else
      let rest := reading name "" lines
      ⟨text :: rest.texts,rest.pending⟩

/-- The evaluations of top-level forms that a line begins. -/
def begun (ev : Evaluator) (name : Option String) (p : Prompt) (line : String) :
    List (Node × State) :=
  match Program.read (p.pending ++ line ++ "\n") name p.state with
  | .ok program next => ev.begun Global.frame program.forms next
  | .error _ _ => []

/-- The evaluations of top-level forms that lines begin, in order. -/
def begunAll (ev : Evaluator) (name : Option String) : Prompt → List String → List (Node × State)
  | _, [] => []
  | p, line :: lines => p.begun ev name line ++ begunAll ev name (p.feed ev name line).1 lines

variable {ev : Evaluator} {name : Option String}

theorem reading_open {pending line : String} (waits : isOpen name (pending ++ line ++ "\n") = true)
    (lines : List String) :
    reading name pending (line :: lines) = reading name (pending ++ line ++ "\n") lines := by
  simp only [reading,waits,if_true]

theorem reading_closed {pending line : String}
    (whole : isOpen name (pending ++ line ++ "\n") = false) (lines : List String) :
    reading name pending (line :: lines) =
      ⟨(pending ++ line ++ "\n") :: (reading name "" lines).texts,(reading name "" lines).pending⟩ := by
  simp only [reading,whole,Bool.false_eq_true,if_false]

/-- Nothing of the input is lost or read into two texts. -/
theorem reading_join (name : Option String) (pending : String) (lines : List String) :
    String.join (reading name pending lines).texts ++ (reading name pending lines).pending =
      pending ++ String.join (lines.map (· ++ "\n")) := by
  induction lines generalizing pending with
  | nil => simp [reading]
  | cons line lines ih =>
    cases whole : isOpen name (pending ++ line ++ "\n") with
    | true => rw [reading_open whole,ih]; simp [String.append_assoc]
    | false =>
      have rest := ih ""
      rw [reading_closed whole]
      simp [String.append_assoc] at rest ⊢
      exact rest

theorem isOpen_eq_true {text : String} :
    isOpen name text = true ↔ ∃ pos, Program.parse text name = .error ⟨.unclosedList,pos⟩ := by
  unfold isOpen
  split
  · simp [*]
  · rename_i e failed
    obtain ⟨fault,pos⟩ := e
    simp [failed]

/-- A text that waits for more lines is not evaluated. -/
theorem evaluate_open (ev : Evaluator) {text : String} (waits : isOpen name text = true)
    (env : FrameId) (state : State) :
    ∃ pos, evaluate ev text name env state = .error (.reading ⟨.unclosedList,pos⟩) state := by
  obtain ⟨pos,failed⟩ := isOpen_eq_true.mp waits
  refine ⟨pos,?_⟩
  simp only [evaluate,bind,EStateM.bind,Program.read_error failed]

/-- Any other text fails, if it does, in a way that no further line can mend. -/
theorem evaluate_closed (late : ev.FailsLate) {text : String} (whole : isOpen name text = false)
    {env : FrameId} {state next : State} {failure : Failure}
    (failed : evaluate ev text name env state = .error failure next) : wantsMore failure = false := by
  cases failure with
  | running | outOfFuel => rfl
  | reading e =>
    cases parsed : Program.parse text name with
    | error found =>
      simp only [evaluate,bind,EStateM.bind,Program.read_error parsed] at failed
      cases failed
      simpa only [isOpen,parsed,wantsMore] using whole
    | ok program =>
      obtain ⟨loaded,middle,read,-⟩ := Program.read_ok parsed state
      have running : (do let v ← loaded.run ev env; ev.force v : Eval Value).FailsLate :=
        (late.program loaded env).bind late.force
      have after : (do let v ← loaded.run ev env; ev.force v : Eval Value) middle =
          .error (.reading e) next := by
        simpa only [evaluate,bind,EStateM.bind,read] using failed
      have fault := running _ _ _ after
      simp only [wantsMore,beq_eq_false_iff_ne]
      intro unclosed
      rw [unclosed] at fault
      contradiction

theorem feed_open {p : Prompt} {line : String}
    (waits : isOpen name (p.pending ++ line ++ "\n") = true) :
    p.feed ev name line = (⟨p.state,p.pending ++ line ++ "\n"⟩,.empty) := by
  obtain ⟨pos,same⟩ := evaluate_open ev waits Global.frame p.state
  simp only [feed,same,wantsMore,beq_self_eq_true,if_true]

theorem feed_closed (late : ev.FailsLate) {p : Prompt} {line : String}
    (whole : isOpen name (p.pending ++ line ++ "\n") = false) :
    (p.feed ev name line).1 =
      ⟨(evaluate ev (p.pending ++ line ++ "\n") name Global.frame).after p.state,""⟩ := by
  cases outcome : evaluate ev (p.pending ++ line ++ "\n") name Global.frame p.state with
  | ok v next => cases v <;> simp only [feed,Eval.after,outcome]
  | error failure next =>
    simp only [feed,Eval.after,outcome,evaluate_closed late whole outcome,Bool.false_eq_true,if_false]

theorem begun_open {p : Prompt} {line : String}
    (waits : isOpen name (p.pending ++ line ++ "\n") = true) : p.begun ev name line = [] := by
  obtain ⟨pos,failed⟩ := isOpen_eq_true.mp waits
  simp only [begun,Program.read_error failed]

/-- The first evaluation begins once the text is taken in. -/
theorem begun_first {p : Prompt} {line : String} {first : Node × State}
    (begins : first ∈ (p.begun ev name line).head?) : ∃ program,
      Program.read (p.pending ++ line ++ "\n") name p.state = .ok program first.2 ∧
        program.forms.head? = some first.1 := by
  unfold begun at begins
  split at begins
  next program next read =>
    rw [ev.begun_head,Option.mem_def,Option.map_eq_some_iff] at begins
    obtain ⟨n,head,rfl⟩ := begins
    exact ⟨program,read,head⟩
  next => contradiction

theorem begun_chain (ev : Evaluator) (name : Option String) (p : Prompt) (line : String) :
    (p.begun ev name line).IsChain fun former later =>
      ∃ v, ev.eval former.1 Global.frame former.2 = .ok v later.2 := by
  unfold begun
  split
  next program next _ => exact ev.begun_chain Global.frame program.forms next
  next => exact List.isChain_nil

/-- The line is read, then its last evaluation decides, and the value is forced. -/
theorem evaluate_begun (ev : Evaluator) (name : Option String) (p : Prompt) (line : String) :
    evaluate ev (p.pending ++ line ++ "\n") name Global.frame p.state =
      match (p.begun ev name line).getLast? with
      | some (form,last) => (do ev.force (← ev.eval form Global.frame) : Eval Value) last
      | none => (do
          let _ ← Program.read (p.pending ++ line ++ "\n") name
          Eval.fail .emptyProgram : Eval Value) p.state := by
  simp only [evaluate,begun,bind,EStateM.bind]
  cases Program.read (p.pending ++ line ++ "\n") name p.state with
  | error failure next => rfl
  | ok program next =>
    dsimp only
    by_cases empty : program.forms = []
    · simp only [Program.run,empty,List.isEmpty_nil,if_true,Evaluator.begun,List.getLast?_nil]
      rfl
    · obtain ⟨last,found,same⟩ := ev.body_begun Global.frame empty next
      rw [found,Program.run,if_neg (by simpa using empty),same]

/-- The evaluations that a line begins are those of forms of its text, in their order. -/
theorem begun_sublist (p : Prompt) (line : String) :
    List.Sublist ((p.begun ev name line).map fun e => e.1.unlabelled)
      ((Program.formsOf name (p.pending ++ line ++ "\n")).map Node.unlabelled) := by
  cases parsed : Program.parse (p.pending ++ line ++ "\n") name with
  | error e =>
    simp only [begun,Program.read_error parsed,List.map_nil]
    exact List.nil_sublist _
  | ok program =>
    obtain ⟨loaded,next,read,labels⟩ := Program.read_ok parsed p.state
    have order := (ev.begun_prefix Global.frame loaded.forms next).sublist.map Node.unlabelled
    simp only [begun,read,Program.formsOf,parsed,← labels]
    rwa [List.map_map] at order

/-- What a whole session evaluates: the texts that its lines make up, one after the other. -/
theorem feedAll_reading (late : ev.FailsLate) (p : Prompt) (lines : List String) :
    lines.foldl (fun p line => (p.feed ev name line).1) p =
      ⟨(reading name p.pending lines).texts.foldl
        (fun state text => (evaluate ev text name Global.frame).after state) p.state,
        (reading name p.pending lines).pending⟩ := by
  induction lines generalizing p with
  | nil => rfl
  | cons line lines ih =>
    rw [List.foldl_cons]
    cases whole : isOpen name (p.pending ++ line ++ "\n") with
    | true => rw [reading_open whole,ih,feed_open whole]
    | false => rw [reading_closed whole,ih,feed_closed late whole,List.foldl_cons]

theorem begunAll_sublist (late : ev.FailsLate) (p : Prompt) (lines : List String) :
    List.Sublist ((p.begunAll ev name lines).map fun e => e.1.unlabelled)
      (((reading name p.pending lines).texts.flatMap (Program.formsOf name)).map Node.unlabelled) := by
  induction lines generalizing p with
  | nil => exact List.nil_sublist _
  | cons line lines ih =>
    rw [begunAll]
    cases whole : isOpen name (p.pending ++ line ++ "\n") with
    | true =>
      rw [begun_open whole,feed_open whole,reading_open whole,List.nil_append]
      exact ih _
    | false =>
      rw [feed_closed late whole,reading_closed whole,List.flatMap_cons,List.map_append,List.map_append]
      exact (begun_sublist p line).append (ih _)

/-- The second line ends the text that the first one left open. -/
example : (reading none "" ["(a","b) c","d"]).texts = ["(a\nb) c\n","d\n"] := by decide

/-- The prompt evaluates every form at most once, and in order. Evaluation has no syntax errors but
late ones, so a text that is found unclosed was never evaluated: the line that leaves it so begins
no evaluation and changes no state. Of any other line the evaluations that it begins are all that is
done with its text, whatever the evaluator, and be it one that leaves a mark on the state each time
it is asked: the first begins where the text was taken in, each further one where the one before it
ended, and the value of the last is forced. The lines of a session are cut into texts, without loss
or overlap, each text is evaluated once, and the evaluations of top-level forms that are begun are
those of forms of the texts, in their order and each at most once. -/
theorem feed_evaluates_once (fuel : Nat) (name : Option String) :
    (Evaluator.ofFuel fuel).FailsLate ∧ (∀ n, (Eval.quote (Datum.ofNode n)).FailsLate) ∧
    (∀ (p : Prompt) (line : String) (e : SyntaxError) (next : State),
      evaluate (.ofFuel fuel) (p.pending ++ line ++ "\n") name Global.frame p.state =
        .error (.reading e) next → e.fault = .unclosedList →
      next = p.state ∧ p.begun (.ofFuel fuel) name line = [] ∧
        p.feed (.ofFuel fuel) name line = (⟨p.state,p.pending ++ line ++ "\n"⟩,.empty)) ∧
    (∀ (ev : Evaluator) (p : Prompt) (line : String),
      (∀ first ∈ (p.begun ev name line).head?, ∃ program,
        Program.read (p.pending ++ line ++ "\n") name p.state = .ok program first.2 ∧
          program.forms.head? = some first.1) ∧
      ((p.begun ev name line).IsChain fun former later =>
        ∃ v, ev.eval former.1 Global.frame former.2 = .ok v later.2) ∧
      evaluate ev (p.pending ++ line ++ "\n") name Global.frame p.state =
        match (p.begun ev name line).getLast? with
        | some (form,last) => (do ev.force (← ev.eval form Global.frame) : Eval Value) last
        | none => (do
            let _ ← Program.read (p.pending ++ line ++ "\n") name
            Eval.fail .emptyProgram : Eval Value) p.state) ∧
    ∀ (p : Prompt) (lines : List String),
      String.join (reading name p.pending lines).texts ++ (reading name p.pending lines).pending =
        p.pending ++ String.join (lines.map (· ++ "\n")) ∧
      lines.foldl (fun p line => (p.feed (.ofFuel fuel) name line).1) p =
        ⟨(reading name p.pending lines).texts.foldl
          (fun state text => (evaluate (.ofFuel fuel) text name Global.frame).after state) p.state,
          (reading name p.pending lines).pending⟩ ∧
      List.Sublist ((p.begunAll (.ofFuel fuel) name lines).map fun e => e.1.unlabelled)
        (((reading name p.pending lines).texts.flatMap (Program.formsOf name)).map
          Node.unlabelled) := by
  have late := Evaluator.ofFuel_failsLate fuel
  refine ⟨late,fun n => Eval.FailsLate.congruence.quote (Datum.ofNode_late n),?_,?_,?_⟩
  · intro p line e next failed unclosed
    cases whole : isOpen name (p.pending ++ line ++ "\n") with
    | true =>
      obtain ⟨pos,same⟩ := evaluate_open (.ofFuel fuel) whole Global.frame p.state
      rw [same] at failed
      cases failed
      exact ⟨rfl,begun_open whole,feed_open whole⟩
    | false =>
      have settled := evaluate_closed late whole failed
      simp [wantsMore,unclosed] at settled
  · intro ev p line
    exact ⟨fun _ => begun_first,p.begun_chain ev name line,evaluate_begun ev name p line⟩
  · intro p lines
    exact ⟨reading_join name p.pending lines,feedAll_reading late p lines,begunAll_sublist late p lines⟩

end Prompt
end MiniScheme
