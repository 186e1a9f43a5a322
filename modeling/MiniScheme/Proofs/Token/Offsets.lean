import Mathlib.Data.List.Forall2
import Mathlib.Data.List.Induction
import MiniScheme.Proofs.Token.Lines

/-! Where tokens stand. The scanner's place is always that of the character it has come to, and a
token takes the place at which its first character is read. So the tokens of a text, outer before
inner and left before right, stand at increasing offsets, each where the text spells it. -/
namespace MiniScheme

namespace Position

/-- Columns count from the last line feed. -/
theorem after_column (name : Option String) (before : List Char) :
    ((start name).after before).column = 1 + (before.reverse.takeWhile (· != '\n')).length := by
  induction before using List.reverseRecOn with
  | nil => rfl
  | append_singleton before c ih =>
    rw [after_append,after_cons,after_nil,List.reverse_append,List.reverse_singleton,
      List.singleton_append,List.takeWhile_cons,advance]
    by_cases feed : c = '\n'
    · simp [feed]
    · simp [feed,ih]
      omega

/-- `p.Marks text name o`: the place `p` is that of the offset `o` in a text of this name. -/
structure Marks (text : List Char) (name : Option String) (o : Nat) (p : Position) : Prop where
  inside : o ≤ text.length
  line : p.line = 1 + (text.take o).count '\n'
  column : p.column = 1 + ((text.take o).reverse.takeWhile (· != '\n')).length
  source : p.source = name

theorem marks_after {text : List Char} {name : Option String} {o : Nat} (inside : o ≤ text.length) :
    ((start name).after (text.take o)).Marks text name o :=
  ⟨inside,after_line ..,after_column ..,after_source ..⟩

end Position

/-! Tokens in the order in which they begin. -/

namespace Token

/-- What a token begins with: the whole of most atoms, or the character that opens it. -/
inductive Head where
  | atom (kind : AtomKind) (text : String)
  | list
  | quote

def Head.Begins : Head → List Char → Prop
  | atom .string _,cs => ['"'] <+: cs
  | atom .char text,cs => '#' :: '\\' :: text.toList <+: cs
  | atom _ text,cs => text.toList <+: cs
  | list,cs => ['('] <+: cs ∨ ['['] <+: cs
  | quote,cs => ['\x27'] <+: cs ∨ ['\x60'] <+: cs

/-- How a token begins and where. -/
structure Mark where
  head : Head
  pos : Position

/-- The mark stands at the offset `o` of a text, and the text goes on there as the mark says. -/
structure Mark.Sits (text : List Char) (name : Option String) (mark : Mark) (o : Nat) : Prop where
  place : mark.pos.Marks text name o
  spelled : mark.head.Begins (text.drop o)

theorem Mark.exists_sits {text : List Char} {name : Option String} {mark : Mark} {marks : List Mark}
    {offsets : List Nat} (sits : List.Forall₂ (Sits text name) marks offsets) (member : mark ∈ marks) :
    ∃ o, mark.Sits text name o := by
  induction sits with
  | nil => cases member
  | cons head _ ih =>
    rcases List.mem_cons.mp member with rfl | later
    · exact ⟨_,head⟩
    · exact ih later

def mark : Token → Mark
  | atom kind text pos => ⟨.atom kind text,pos⟩
  | list _ pos => ⟨.list,pos⟩
  | quote _ _ pos => ⟨.quote,pos⟩

mutual

/-- A token and all tokens inside it, in pre-order. -/
def preorder : Token → List Token
  | atom kind text pos => [atom kind text pos]
  | list items pos => list items pos :: preorderAll items
  | quote kind inner pos => quote kind inner pos :: inner.preorder

def preorderAll : List Token → List Token
  | [] => []
  | t :: ts => t.preorder ++ preorderAll ts

end

def marks (tokens : List Token) : List Mark := (preorderAll tokens).map mark

theorem preorderAll_concat (tokens : List Token) (token : Token) :
    preorderAll (tokens ++ [token]) = preorderAll tokens ++ token.preorder := by
  induction tokens with
  | nil => simp [preorderAll]
  | cons t ts ih => rw [List.cons_append,preorderAll,preorderAll,ih,List.append_assoc]

/-- The newest of reversed tokens is the last. -/
theorem marks_newest (token : Token) (tokens : List Token) :
    marks (token :: tokens).reverse = marks tokens.reverse ++ token.preorder.map mark := by
  rw [marks,List.reverse_cons,preorderAll_concat,List.map_append]
  rfl

end Token

open Token

/-- The tokens that have begun with an opening: the one that is open and those inside it. -/
def Opening.marks : Opening → List Mark
  | .list items pos => ⟨.list,pos⟩ :: Token.marks items.reverse
  | .quote pos | .vectorQuote pos => [⟨.quote,pos⟩]

/-- What a lexeme begins, if it begins a token. -/
def Lexeme.head? : Lexeme → Option Head
  | .opener _ => some .list
  | .quoteMark => some .quote
  | .atom kind text => some (.atom kind text)
  | .gap | .closer _ => none

theorem Lexeme.Spelled.begins {word rest : List Char} {lexeme : Lexeme} {head : Head}
    (spelled : Spelled word lexeme rest) (found : lexeme.head? = some head) :
    head.Begins (word ++ rest) := by
  cases spelled with
  | blank | comment | closer => cases found
  | opener bracket =>
    cases found
    cases bracket with
    | round => exact .inl (List.prefix_append ..)
    | square => exact .inr (List.prefix_append ..)
  | quoteMark mark =>
    cases found
    simp only [isQuoteMark,Bool.or_eq_true,beq_iff_eq] at mark
    rcases mark with rfl | rfl
    · exact .inr (List.prefix_append ..)
    · exact .inl (List.prefix_append ..)
  | @atom kind text =>
    cases found
    cases kind with
    | string => exact ⟨_,rfl⟩
    | char | number | boolean | symbol | dot | sharp => exact List.prefix_append ..

namespace Scanner

/-- What has begun, in order: the finished tokens, and what is still open from the outermost in. -/
def trail (stack : List Opening) (done : List Token) : List Mark :=
  marks done.reverse ++ stack.reverse.flatMap Opening.marks

theorem trail_push (opening : Opening) (stack : List Opening) (done : List Token) :
    trail (opening :: stack) done = trail stack done ++ opening.marks := by
  simp [trail]

/-- A token that is handed over comes last, with all that is inside it. Only a vector mark behind a
quote is no token. -/
theorem deliver_trail (token : Token) {stack : List Opening} {done : List Token}
    (kept : token.isSharp = true → ∀ pos rest, stack ≠ .quote pos :: rest) :
    trail (deliver token stack done).1 (deliver token stack done).2 =
      trail stack done ++ token.preorder.map mark := by
  induction stack generalizing token with
  | nil =>
    rw [deliver,trail,trail,marks_newest]
    simp
  | cons opening stack ih =>
    cases opening with
    | list items pos =>
      rw [deliver,trail_push,trail_push,Opening.marks,marks_newest,List.append_assoc]
      rfl
    | quote pos =>
      have plain : token.isSharp = false := by
        by_contra sharp
        exact kept (by simpa using sharp) pos stack rfl
      have rest := ih (.quote .list token pos) (by simp [isSharp])
      rw [deliver,plain,trail_push,List.append_assoc]
      exact rest
    | vectorQuote pos =>
      have rest := ih (.quote .vector token pos) (by simp [isSharp])
      rw [deliver,trail_push,List.append_assoc]
      exact rest

variable {s next : Scanner} {lexeme : Lexeme} {e : SyntaxError}

/-- All tokens that have begun, in order. -/
abbrev begun (s : Scanner) : List Mark := trail s.stack s.done

theorem add_begun (s : Scanner) (token : Token) :
    (s.add token).begun = s.begun ++ token.preorder.map mark ∨
      token.isSharp = true ∧ (s.add token).begun = s.begun := by
  by_cases dropped : token.isSharp = true ∧ ∃ pos rest, s.stack = .quote pos :: rest
  · obtain ⟨sharp,pos,rest,top⟩ := dropped
    refine .inr ⟨sharp,?_⟩
    simp only [begun,add,top,deliver,sharp,if_true,trail_push]
    rfl
  · refine .inl (deliver_trail token fun sharp pos rest top => dropped ⟨sharp,pos,rest,top⟩)

/-- A lexeme that is taken begins at most one token, at the scanner's place. -/
theorem take_begun (taken : s.take lexeme = .ok next) :
    next.begun = s.begun ∨ ∃ head, lexeme.head? = some head ∧ next.begun = s.begun ++ [⟨head,s.pos⟩] := by
  cases lexeme with
  | gap => cases taken; exact .inl rfl
  | opener bracket =>
    cases taken
    refine .inr ⟨.list,rfl,?_⟩
    cases bracket <;> exact trail_push ..
  | quoteMark =>
    cases taken
    exact .inr ⟨.quote,rfl,trail_push ..⟩
  | atom kind text =>
    cases taken
    rcases add_begun s (.atom kind text s.pos) with added | ⟨-,same⟩
    · exact .inr ⟨_,rfl,added⟩
    · exact .inl same
  | closer bracket =>
    obtain ⟨_,items,pos,stack,top,rfl⟩ := take_closer taken
    have ended : ∀ done, trail (deliver (.list items.reverse pos) stack done).1
        (deliver (.list items.reverse pos) stack done).2 = trail (.list items pos :: stack) done := by
      intro done
      rw [deliver_trail _ (by simp [isSharp]),trail_push]
      rfl
    refine .inl ?_
    rw [show s.begun = trail (.list items pos :: stack) s.done from congrArg (trail · s.done) top]
    cases bracket <;> exact ended s.done

theorem quote_mem_begun {pos : Position} {rest : List Opening}
    (top : s.stack = .quote pos :: rest ∨ s.stack = .vectorQuote pos :: rest) :
    ⟨.quote,pos⟩ ∈ s.begun := by
  rcases top with top | top <;> simp [begun,top,trail_push,Opening.marks]

/-- A lexeme is refused at the scanner's place, or at a quote that is still open. -/
theorem refused_pos (refused : s.take lexeme = .error e) : e.pos = s.pos ∨ ⟨.quote,e.pos⟩ ∈ s.begun := by
  cases lexeme with
  | gap | opener | quoteMark | atom => cases refused
  | closer bracket =>
    have place : (s.setCount (s.count bracket - 1) bracket).pos = s.pos := by cases bracket <;> rfl
    have stack : (s.setCount (s.count bracket - 1) bracket).stack = s.stack := by
      cases bracket <;> rfl
    rw [take] at refused
    split at refused
    next => cases refused; exact .inl rfl
    next =>
      rw [close,stack,place] at refused
      split at refused
      next => contradiction
      next pos rest top => cases refused; exact .inr (quote_mem_begun (.inl top))
      next pos rest top => cases refused; exact .inr (quote_mem_begun (.inr top))
      next => cases refused; exact .inl rfl

theorem finish_pos (unfinished : s.finish = .error e) : e.pos = s.pos ∨ ⟨.quote,e.pos⟩ ∈ s.begun := by
  rw [finish] at unfinished
  split at unfinished
  next pos rest top => cases unfinished; exact .inr (quote_mem_begun (.inl top))
  next pos rest top => cases unfinished; exact .inr (quote_mem_begun (.inr top))
  next =>
    split at unfinished
    next => cases unfinished; exact .inl rfl
    next => contradiction

/-! Runs, accepted or not. -/

/-- How a run ends in a state where `rest` is left of the text: at its end, at a misfit, or at a
lexeme that is refused. -/
inductive Stops : Scanner → List Char → Except SyntaxError (List Token) → Prop where
  | finish {s : Scanner} : Stops s [] s.finish
  | misfit {s : Scanner} {c : Char} {cs : List Char} {m : Lexeme.Misfit} : Lexeme.read c cs = .error m →
      Stops s (c :: cs) (.error ⟨m.fault,s.pos.after ((c :: cs).take m.offset)⟩)
  | refused {s : Scanner} {rest : List Char} {lexeme : Lexeme} {e : SyntaxError} :
      s.take lexeme = .error e → Stops s rest (.error e)

/-- What every word preserves holds where the run ends. -/
theorem run_stops (property : Scanner → List Char → Prop)
    (step : ∀ {s next : Scanner} {word rest : List Char} {lexeme : Lexeme},
      Lexeme.Spelled word lexeme rest → s.take lexeme = .ok next → property s (word ++ rest) →
        property (next.skip word) rest)
    {text : List Char} (start : property s text) :
    ∃ last rest, property last rest ∧ Stops last rest (run text 0 s) := by
  induction length : text.length using Nat.strong_induction_on generalizing text s with
  | _ n ih =>
    subst length
    cases text with
    | nil => exact ⟨s,[],start,.finish⟩
    | cons c cs =>
      rw [run]
      split
      next m misfit => exact ⟨s,c :: cs,start,.misfit misfit⟩
      next reading found =>
      split
      next e refused => exact ⟨s,c :: cs,start,.refused refused⟩
      next next taken =>
      obtain ⟨word,rest,whole,size,spelled⟩ := Lexeme.read_eq_ok_iff.mp found
      obtain ⟨d,tail,rfl⟩ := spelled_cons spelled
      rw [whole] at start
      rw [List.cons_append,List.cons.injEq] at whole
      obtain ⟨rfl,rfl⟩ := whole
      rw [size,List.length_cons,Nat.add_sub_cancel,run_pending]
      have shorter : rest.length < (c :: (tail ++ rest)).length := by
        simp only [List.length_cons,List.length_append]
        omega
      have after : property (next.skip (c :: tail)) rest := step spelled taken start
      exact ih rest.length shorter after rfl

/-- The scanner has come to the offset `o` of a text, and the tokens that have begun sit at the
offsets before it. -/
structure Tracks (text : List Char) (name : Option String) (s : Scanner) (o : Nat)
    (offsets : List Nat) : Prop where
  inside : o ≤ text.length
  place : s.pos = (Position.start name).after (text.take o)
  sits : List.Forall₂ (Mark.Sits text name) s.begun offsets
  increasing : offsets.Pairwise (· < ·)
  behind : ∀ k ∈ offsets, k < o
  balanced : s.Balanced

variable {text : List Char} {name : Option String} {o : Nat} {offsets : List Nat}

theorem Tracks.marks (tracks : Tracks text name s o offsets) : s.pos.Marks text name o := by
  rw [tracks.place]
  exact Position.marks_after tracks.inside

/-- The scanner has come to where `rest` is left of a text. -/
def Tracked (text : List Char) (name : Option String) (s : Scanner) (rest : List Char) : Prop :=
  ∃ o offsets, text.drop o = rest ∧ s.Tracks text name o offsets

theorem start_tracked (text : List Char) (name : Option String) : (start name).Tracked text name text :=
  ⟨0,[],rfl,Nat.zero_le _,rfl,.nil,.nil,by simp,start_balanced name⟩

/-- A word moves the scanner on by its length, and the token that it begins, if any, sits where the
scanner was. -/
theorem Tracked.word {word rest : List Char} (tracked : s.Tracked text name (word ++ rest))
    (spelled : Lexeme.Spelled word lexeme rest) (taken : s.take lexeme = .ok next) :
    (next.skip word).Tracked text name rest := by
  obtain ⟨o,offsets,left,tracks⟩ := tracked
  have moved : text.take (o + word.length) = text.take o ++ word := by
    rw [List.take_add,left,List.take_left]
  have remains : text.drop (o + word.length) = rest := by
    rw [← List.drop_drop,left,List.drop_left]
  have width : 0 < word.length := by
    obtain ⟨c,tail,rfl⟩ := spelled_cons spelled
    exact Nat.succ_pos _
  have inside : o + word.length ≤ text.length := by
    have sizes := congrArg List.length left
    rw [List.length_drop,List.length_append] at sizes
    have before := tracks.inside
    omega
  have place : (next.skip word).pos = (Position.start name).after (text.take (o + word.length)) := by
    rw [moved,Position.after_append,← tracks.place,← take_pos taken]
    rfl
  have balanced : next.Balanced := take_balanced tracks.balanced taken
  rcases take_begun taken with same | ⟨head,begins,added⟩
  · refine ⟨_,offsets,remains,inside,place,?_,tracks.increasing,?_,balanced⟩
    · have sits := tracks.sits
      rwa [← same] at sits
    · intro k member
      have bound := tracks.behind k member
      omega
  · have here : Mark.Sits text name ⟨head,s.pos⟩ o := ⟨tracks.marks,left ▸ spelled.begins begins⟩
    refine ⟨_,offsets ++ [o],remains,inside,place,?_,?_,?_,balanced⟩
    · have sits : List.Forall₂ (Mark.Sits text name) (s.begun ++ [⟨head,s.pos⟩]) (offsets ++ [o]) :=
        List.rel_append tracks.sits (.cons here .nil)
      rwa [← added] at sits
    · refine List.pairwise_append.mpr ⟨tracks.increasing,List.pairwise_singleton ..,?_⟩
      intro k member last same
      rw [List.mem_singleton.mp same]
      exact tracks.behind k member
    · intro k member
      rcases List.mem_append.mp member with earlier | last
      · have bound := tracks.behind k earlier
        omega
      · rw [List.mem_singleton.mp last]
        omega

/-- An error at the scanner's place, or at something that has begun, is at an offset of the text. -/
theorem Tracks.marks_of_begun (tracks : Tracks text name s o offsets) {pos : Position}
    (named : pos = s.pos ∨ ⟨.quote,pos⟩ ∈ s.begun) : ∃ k, pos.Marks text name k := by
  rcases named with rfl | member
  · exact ⟨o,tracks.marks⟩
  · obtain ⟨k,sits⟩ := Mark.exists_sits tracks.sits member
    exact ⟨k,sits.place⟩

/-- A misfit lies some characters further on, at most at the end of the text. -/
theorem Tracks.marks_further (tracks : Tracks text name s o offsets) (offset : Nat) :
    ∃ k, (s.pos.after ((text.drop o).take offset)).Marks text name k := by
  refine ⟨min (o + offset) text.length,?_⟩
  have further : s.pos.after ((text.drop o).take offset) =
      (Position.start name).after (text.take (min (o + offset) text.length)) := by
    rw [tracks.place,← Position.after_append,← List.take_add,← List.take_eq_take_min]
  rw [further]
  exact Position.marks_after (Nat.min_le_right ..)

end Scanner

/-- Every token sits where its place says. The tokens of a text, at every depth and in pre-order,
stand at increasing offsets; each has the line and column of its offset and the name of the text,
and the text spells it there. If there are no tokens, the error has the place of an offset too. -/
theorem Token.scan_offsets (text : String) (name : Option String) :
    match scan text name with
    | .ok tokens => ∃ offsets,
      List.Forall₂ (fun token o => token.mark.Sits text.toList name o) (preorderAll tokens) offsets ∧
        offsets.Pairwise (· < ·)
    | .error e => ∃ o, e.pos.Marks text.toList name o := by
  obtain ⟨last,rest,⟨o,offsets,left,tracks⟩,stops⟩ :=
    Scanner.run_stops (Scanner.Tracked text.toList name)
      (fun spelled taken tracked => tracked.word spelled taken) (Scanner.start_tracked text.toList name)
  rw [scan]
  generalize Scanner.run text.toList 0 (.start name) = result at stops
  cases stops with
  | finish =>
    cases finished : last.finish with
    | ok tokens =>
      obtain ⟨-,-,stack,rfl⟩ := Scanner.finish_eq_ok tracks.balanced finished
      refine ⟨offsets,?_,tracks.increasing⟩
      have sits := tracks.sits
      simpa [Scanner.begun,Scanner.trail,stack,marks] using sits
    | error e => exact tracks.marks_of_begun (Scanner.finish_pos finished)
  | refused refused => exact tracks.marks_of_begun (Scanner.refused_pos refused)
  | @misfit c cs m =>
    have further := tracks.marks_further m.offset
    rwa [left] at further

end MiniScheme
