import MiniScheme.Proofs.Likeness.Evaluator
import MiniScheme.Proofs.Prompt.Once
import MiniScheme.Proofs.Token.Scan

/-! The places of errors. Places enter a session with the nodes of the texts it reads, and nothing
makes up others: whatever an error names is the place of a node of one of these texts. -/
namespace MiniScheme

/-- Places stand for themselves only, and only some of them occur. -/
def Likeness.within (allowed : Position → Prop) : Likeness where
  place p q := p = q ∧ allowed p
  number _ := True
  literal _ := trivial
  integer _ := trivial
  pi := trivial
  arithmetic _ _ _ _ := trivial

variable {allowed : Position → Prop}

/-! Trees. -/

namespace Node

mutual

/-- The places of a tree, at every depth. -/
def places : Node → List Position
  | quote _ inner pos => pos :: inner.places
  | list items pos => pos :: placesAll items
  | string _ _ pos | char _ pos | boolean _ pos | number _ pos | symbol _ pos | dot pos
  | sharp pos => [pos]

def placesAll : List Node → List Position
  | [] => []
  | n :: ns => n.places ++ placesAll ns

end

mutual

theorem like_within : (n : Node) → (∀ p ∈ n.places, allowed p) → Like (.within allowed) n n
  | quote kind inner pos,inside =>
    .quote kind (like_within inner fun p member => inside p (List.mem_cons_of_mem pos member))
      ⟨rfl,inside pos List.mem_cons_self⟩
  | list items pos,inside =>
    .list (likeAll_within items fun p member => inside p (List.mem_cons_of_mem pos member))
      ⟨rfl,inside pos List.mem_cons_self⟩
  | string text label pos,inside => .string text label ⟨rfl,inside pos List.mem_cons_self⟩
  | char c pos,inside => .char c ⟨rfl,inside pos List.mem_cons_self⟩
  | boolean b pos,inside => .boolean b ⟨rfl,inside pos List.mem_cons_self⟩
  | number _ pos,inside => .number trivial ⟨rfl,inside pos List.mem_cons_self⟩
  | symbol name pos,inside => .symbol name ⟨rfl,inside pos List.mem_cons_self⟩
  | dot pos,inside => .dot ⟨rfl,inside pos List.mem_cons_self⟩
  | sharp pos,inside => .sharp ⟨rfl,inside pos List.mem_cons_self⟩

theorem likeAll_within : (ns : List Node) → (∀ p ∈ placesAll ns, allowed p) →
    LikeAll (.within allowed) ns ns
  | [],_ => .nil
  | n :: ns,inside =>
    .cons (like_within n fun p member => inside p (List.mem_append_left _ member))
      (likeAll_within ns fun p member => inside p (List.mem_append_right _ member))

end

mutual

theorem Like.places_allowed : {n m : Node} → Like (.within allowed) n m → ∀ p ∈ n.places, allowed p
  | _,_,.quote _ inner place => List.forall_mem_cons.mpr ⟨place.2,inner.places_allowed⟩
  | _,_,.list items place => List.forall_mem_cons.mpr ⟨place.2,LikeAll.places_allowed items⟩
  | _,_,.string _ _ place | _,_,.char _ place | _,_,.boolean _ place | _,_,.number _ place
  | _,_,.symbol _ place | _,_,.dot place | _,_,.sharp place => List.forall_mem_singleton.mpr place.2

theorem LikeAll.places_allowed : {ns ms : List Node} → LikeAll (.within allowed) ns ms →
    ∀ p ∈ placesAll ns, allowed p
  | _,_,.nil => by simp [placesAll]
  | _,_,.cons head tail => List.forall_mem_append.mpr ⟨head.places_allowed,LikeAll.places_allowed tail⟩

end

end Node

def Program.places (p : Program) : List Position := Node.placesAll p.forms

/-- The places that an error names: its own, if it has one, and those of its trace. -/
def Failure.places : Failure → List Position
  | .reading e => [e.pos]
  | .running e => e.pos.toList ++ e.frames.toList.map Prod.fst
  | .outOfFuel => []

theorem Failure.Like.places_allowed {x y : Failure} (like : Like (.within allowed) x y) :
    ∀ p ∈ x.places, allowed p := by
  cases like with
  | outOfFuel => simp [places]
  | reading error =>
    obtain ⟨fault,place⟩ := error
    exact List.forall_mem_singleton.mpr place.2
  | @running e f error =>
    refine List.forall_mem_append.mpr ⟨?_,?_⟩
    · have pos := error.pos
      generalize e.pos = x,f.pos = y at pos ⊢
      cases pos with
      | none => simp
      | some place => exact List.forall_mem_singleton.mpr place.2
    · have frames := error.frames
      unfold Rows at frames
      generalize e.frames.toList = xs,f.frames.toList = ys at frames ⊢
      induction frames with
      | nil => simp
      | cons frame _ ih => exact List.forall_mem_cons.mpr ⟨frame.1.2,ih⟩

/-! Scanned texts. -/

namespace Scanner

/-- A token all of whose places may occur. -/
abbrev Located (allowed : Position → Prop) (token : Token) : Prop :=
  Token.Like (.within allowed) token token

/-- What is open, and what it holds so far, stands at places that may occur. -/
def LocatedOpening (allowed : Position → Prop) : Opening → Prop
  | .list items pos => (∀ token ∈ items, Located allowed token) ∧ allowed pos
  | .quote pos | .vectorQuote pos => allowed pos

structure LocatedAll (allowed : Position → Prop) (s : Scanner) : Prop where
  pos : allowed s.pos
  stack : ∀ opening ∈ s.stack, LocatedOpening allowed opening
  done : ∀ token ∈ s.done, Located allowed token

theorem deliver_located {token : Token} {stack : List Opening} {done : List Token}
    (located : Located allowed token) (openings : ∀ opening ∈ stack, LocatedOpening allowed opening)
    (before : ∀ other ∈ done, Located allowed other) :
    (∀ opening ∈ (deliver token stack done).1, LocatedOpening allowed opening) ∧
      ∀ other ∈ (deliver token stack done).2, Located allowed other := by
  induction stack generalizing token with
  | nil => exact ⟨by simp [deliver],List.forall_mem_cons.mpr ⟨located,before⟩⟩
  | cons opening stack ih =>
    obtain ⟨first,rest⟩ := List.forall_mem_cons.mp openings
    cases opening with
    | list items pos =>
      have more : LocatedOpening allowed (.list (token :: items) pos) :=
        ⟨List.forall_mem_cons.mpr ⟨located,first.1⟩,first.2⟩
      exact ⟨List.forall_mem_cons.mpr ⟨more,rest⟩,before⟩
    | quote pos =>
      rw [deliver]
      split
      next => exact ⟨List.forall_mem_cons.mpr ⟨first,rest⟩,before⟩
      next => exact ih (.quote .list located ⟨rfl,first⟩) rest
    | vectorQuote pos => exact ih (.quote .vector located ⟨rfl,first⟩) rest

theorem add_located {s : Scanner} {token : Token} (all : s.LocatedAll allowed)
    (located : Located allowed token) : (s.add token).LocatedAll allowed :=
  have delivered := deliver_located located all.stack all.done
  ⟨all.pos,delivered.1,delivered.2⟩

theorem take_located {s next : Scanner} {lexeme : Lexeme} (all : s.LocatedAll allowed)
    (taken : s.take lexeme = .ok next) : next.LocatedAll allowed := by
  cases lexeme with
  | gap =>
    cases taken
    exact all
  | opener bracket =>
    cases taken
    have opened : LocatedOpening allowed (.list [] s.pos) := ⟨by simp,all.pos⟩
    have openings := List.forall_mem_cons.mpr ⟨opened,all.stack⟩
    cases bracket <;> exact ⟨all.pos,openings,all.done⟩
  | closer bracket =>
    obtain ⟨_,items,pos,stack,top,rfl⟩ := take_closer taken
    have openings := all.stack
    rw [top] at openings
    obtain ⟨ended,rest⟩ := List.forall_mem_cons.mp openings
    have list : Located allowed (.list items.reverse pos) := by
      refine .list (List.forall₂_same.mpr ?_) ⟨rfl,ended.2⟩
      simpa using ended.1
    refine add_located ?_ list
    cases bracket <;> exact ⟨all.pos,rest,all.done⟩
  | quoteMark =>
    cases taken
    exact ⟨all.pos,List.forall_mem_cons.mpr ⟨all.pos,all.stack⟩,all.done⟩
  | atom kind text =>
    cases taken
    exact add_located all (.atom kind text ⟨rfl,all.pos⟩)

theorem after_allowed (step : ∀ p c, allowed p → allowed (p.advance c)) (text : List Char)
    {p : Position} (start : allowed p) : allowed (p.after text) := by
  induction text generalizing p with
  | nil => exact start
  | cons c text ih => exact ih (step p c start)

/-- Tokens stand at places that can be reached from the start of their text. -/
theorem scan_located {text : String} {name : Option String} {tokens : List Token}
    (start : allowed (.start name)) (step : ∀ p c, allowed p → allowed (p.advance c))
    (accepted : Token.scan text name = .ok tokens) :
    List.Forall₂ (Token.Like (.within allowed)) tokens tokens := by
  obtain ⟨final,scans,finished⟩ := scans_of_run accepted
  have balanced := scans.balanced (start_balanced name)
  obtain ⟨-,-,stack,rfl⟩ := finish_eq_ok balanced finished
  have all : final.LocatedAll allowed := by
    have first : (Scanner.start name).LocatedAll allowed :=
      ⟨start,by simp [Scanner.start],by simp [Scanner.start]⟩
    refine scans.preserves (fun s _ => s.LocatedAll allowed) ?_ first
    intro s next word rest lexeme spelled taken before
    have after := take_located before taken
    exact ⟨after_allowed step word after.pos,after.stack,after.done⟩
  refine List.forall₂_same.mpr ?_
  simpa using all.done

end Scanner

/-- Places in a text: lines and columns count from one, and the name is that of the text. -/
structure Position.InText (name : Option String) (p : Position) : Prop where
  line : 0 < p.line
  column : 0 < p.column
  source : p.source = name

theorem Position.InText.advance {name : Option String} {p : Position} (inside : InText name p)
    (c : Char) : InText name (p.advance c) := by
  rw [Position.advance]
  split
  · exact ⟨Nat.succ_pos _,Nat.one_pos,inside.source⟩
  · exact ⟨inside.line,Nat.succ_pos _,inside.source⟩

theorem Program.places_inText {text : String} {name : Option String} {p : Program}
    (parsed : parse text name = .ok p) : ∀ pos ∈ p.places, pos.InText name := by
  cases scanned : Token.scan text name with
  | error e =>
    rw [parse,scanned] at parsed
    contradiction
  | ok tokens =>
    have start : (Position.start name).InText name := ⟨Nat.one_pos,Nat.one_pos,rfl⟩
    have tokens := Scanner.scan_located start (fun _ c inside => inside.advance c) scanned
    have read := ofTokens_like scanned scanned tokens
    rw [parsed] at read
    cases read with
    | ok forms => exact Node.LikeAll.places_allowed forms

/-! Sessions. -/

/-- Texts with their names, newest first, and the state that evaluating them one after the other
leads to. -/
inductive Session : List (String × Option String) → State → Prop where
  | start : Session [] .initial
  | read {sources : List (String × Option String)} {s : State} (text : String) (name : Option String)
      (fuel : Nat) : Session sources s → Session ((text,name) :: sources)
        ((evaluate (.ofFuel fuel) text name Global.frame).after s)

/-- The places of the nodes that were read. -/
def Session.Known (sources : List (String × Option String)) (pos : Position) : Prop :=
  ∃ source ∈ sources, ∃ p, Program.parse source.1 source.2 = .ok p ∧ pos ∈ p.places

namespace Session

variable {sources : List (String × Option String)} {s next : State} {text : String}
  {name : Option String} {fuel : Nat}

/-- A text that was read is evaluated like itself, if its places may occur. -/
theorem evaluate_within (fuel : Nat) {p : Program} (parsed : Program.parse text name = .ok p)
    (inside : ∀ pos ∈ p.places, allowed pos) :
    Eval.Like (.within allowed) (Value.Like (.within allowed))
      (evaluate (.ofFuel fuel) text name Global.frame)
      (evaluate (.ofFuel fuel) text name Global.frame) := by
  refine evaluate_like (Evaluator.ofFuel_like fuel) ?_ Global.frame
  rw [parsed]
  exact .ok (Node.likeAll_within p.forms inside)

/-- The state of a session holds no places but those of nodes that were read. -/
theorem state_within (session : Session sources s) (inside : ∀ pos, Known sources pos → allowed pos) :
    State.Like (.within allowed) s s := by
  induction session with
  | start => exact State.initial_like
  | @read sources s text name fuel _ ih =>
    have before := ih fun pos ⟨source,member,known⟩ =>
      inside pos ⟨source,List.mem_cons_of_mem _ member,known⟩
    cases parsed : Program.parse text name with
    | error e =>
      -- A text that cannot be read changes nothing.
      have same : (evaluate (.ofFuel fuel) text name Global.frame).after s = s := by
        simp only [Eval.after,evaluate,Program.read,parsed,Eval.ofSyntax]
        rfl
      rw [same]
      exact before
    | ok p =>
      have like := evaluate_within fuel parsed
        (fun pos member => inside pos ⟨_,List.mem_cons_self,p,parsed,member⟩) before
      rw [Eval.after]
      generalize evaluate (.ofFuel fuel) text name Global.frame s = outcome at like ⊢
      cases like with
      | ok _ state => exact state
      | error _ state => exact state

/-- Reported places are real. In a session that evaluates any texts, one after the other, from the
initial state, every place that the error of a text that could be read names is that of a node of a
text read so far, and has the name of that text; line and column are never zero. -/
theorem error_places {p : Program} {failure : Failure} (session : Session sources s)
    (parsed : Program.parse text name = .ok p)
    (failed : evaluate (.ofFuel fuel) text name Global.frame s = .error failure next) :
    ∀ pos ∈ failure.places, 0 < pos.line ∧ 0 < pos.column ∧
      ∃ source ∈ (text,name) :: sources, pos.source = source.2 ∧
        ∃ q, Program.parse source.1 source.2 = .ok q ∧ pos ∈ q.places := by
  have state : State.Like (.within (Known ((text,name) :: sources))) s s :=
    session.state_within fun _ ⟨source,member,known⟩ => ⟨source,List.mem_cons_of_mem _ member,known⟩
  have like := evaluate_within fuel parsed
    (fun _ member => ⟨_,List.mem_cons_self,p,parsed,member⟩) state
  rw [failed] at like
  cases like with
  | error failure _ =>
    intro pos member
    obtain ⟨source,member,q,known,node⟩ := failure.places_allowed pos member
    have inside := Program.places_inText known pos node
    exact ⟨inside.line,inside.column,source,member,inside.source,q,known,node⟩

/-- A procedure of one text fails when a second text calls it. -/
theorem error_places_procedure :
    ∃ failure next, evaluate (.ofFuel 9) "(f)" (some "b") Global.frame
        ((evaluate (.ofFuel 9) "(define (f) x)" (some "a") Global.frame).after .initial) =
      .error failure next ∧ failure.places = [⟨1,13,some "a"⟩,⟨1,1,some "b"⟩] ∧
      ∀ pos ∈ failure.places, 0 < pos.line ∧ 0 < pos.column ∧
        ∃ source ∈ [("(f)",some "b"),("(define (f) x)",some "a")], pos.source = source.2 ∧
          ∃ q, Program.parse source.1 source.2 = .ok q ∧ pos ∈ q.places := by
  have places : (match evaluate (.ofFuel 9) "(f)" (some "b") Global.frame
        ((evaluate (.ofFuel 9) "(define (f) x)" (some "a") Global.frame).after .initial) with
      | .error failure _ => failure.places
      | .ok _ _ => []) = [⟨1,13,some "a"⟩,⟨1,1,some "b"⟩] := by decide +kernel
  have session := Session.read "(define (f) x)" (some "a") 9 .start
  have parsed : Program.parse "(f)" (some "b") =
    .ok ⟨[.list [.symbol "f" ⟨1,2,some "b"⟩] ⟨1,1,some "b"⟩]⟩ := rfl
  generalize (evaluate (.ofFuel 9) "(define (f) x)" (some "a") Global.frame).after .initial = s
    at places session ⊢
  cases outcome : evaluate (.ofFuel 9) "(f)" (some "b") Global.frame s with
  | ok _ _ =>
    rw [outcome] at places
    contradiction
  | error failure next =>
    rw [outcome] at places
    exact ⟨failure,next,rfl,places,error_places session parsed outcome⟩

end Session
end MiniScheme
