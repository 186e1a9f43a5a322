import MiniScheme.Proofs.Token.Scan

/-! Scanning is compositional over lines. After an accepted text and a line feed the scanner is in
its first state again, only further down, so a text that follows is scanned as if it stood alone. -/
namespace MiniScheme

namespace Lexeme

/-- A line feed behind what follows a word changes neither the word nor its lexeme. -/
theorem Spelled.extend {word rest : List Char} {lexeme : Lexeme} (spelled : Spelled word lexeme rest)
    (more : List Char) : Spelled word lexeme (rest ++ '\n' :: more) := by
  cases spelled with
  | blank blank => exact .blank blank
  | comment inside stop =>
    refine .comment inside ?_
    intro c head
    cases rest with
    | nil => cases head; rfl
    | cons d rest => exact stop c head
  | opener bracket => exact .opener bracket
  | closer bracket => exact .closer bracket
  | quoteMark mark => exact .quoteMark mark
  | @atom kind text _ admitted border =>
    refine .atom admitted ?_
    cases rest with
    | nil => cases kind <;> first | rfl | contradiction
    | cons d rest => exact border

end Lexeme

namespace Scanner

open Lexeme

variable {s final : Scanner} {text : List Char}

theorem take_pos {lexeme : Lexeme} {next : Scanner} (taken : s.take lexeme = .ok next) :
    next.pos = s.pos := by
  cases lexeme with
  | gap | quoteMark | atom => cases taken; rfl
  | opener bracket => cases taken; cases bracket <;> rfl
  | closer bracket =>
    obtain ⟨_,items,pos,stack,_,rfl⟩ := take_closer taken
    cases bracket <;> rfl

theorem Scans.final_pos (scans : Scans s text final) : final.pos = s.pos.after text := by
  induction scans with
  | nil => rfl
  | word _ taken _ ih => rw [ih,skip,take_pos taken,Position.after_append]

/-- The words of an accepted text are still its words when a line feed and more text follow. -/
theorem Scans.run_line (scans : Scans s text final) (more : List Char) :
    run (text ++ '\n' :: more) 0 s = run more 0 (final.skip ['\n']) := by
  induction scans with
  | @nil s =>
    have blank : Spelled ['\n'] .gap more := .blank rfl
    have taken : s.take .gap = .ok s := rfl
    have moved := run_word blank taken
    exact moved
  | word spelled taken _ ih =>
    rw [List.append_assoc,run_word (spelled.extend more) taken,ih]

theorem after_commutes {f : Position → Position}
    (commutes : ∀ p c, (f p).advance c = f (p.advance c)) (p : Position) (word : List Char) :
    (f p).after word = f (p.after word) := by
  induction word generalizing p with
  | nil => rfl
  | cons c word ih => rw [Position.after_cons,commutes,ih,Position.after_cons]

/-- Moving the scanner moves its answer, if the move agrees with stepping over characters. -/
theorem run_placed {f : Position → Position} (commutes : ∀ p c, (f p).advance c = f (p.advance c))
    (before : List Token) (text : List Char) (pending : Nat) (s : Scanner) :
    run text pending (s.placed f before) =
      ((run text pending s).map fun tokens => before.reverse ++ tokens.map (Token.mapPos f)).mapError
        (SyntaxError.mapPos f) := by
  have stepped (s : Scanner) (c : Char) : (s.placed f before).step c = (s.step c).placed f before := by
    simp only [step,placed,commutes]
  induction text generalizing pending s with
  | nil => cases pending <;> exact finish_placed f before s
  | cons c cs ih =>
    cases pending with
    | succ pending => rw [run,run,stepped,ih]
    | zero =>
      rw [run,run]
      cases Lexeme.read c cs with
      | error misfit =>
        have place := after_commutes commutes s.pos ((c :: cs).take misfit.offset)
        simp only [placed,place]
        rfl
      | ok reading =>
        simp only [take_placed]
        cases s.take reading.lexeme with
        | error e => rfl
        | ok next =>
          simp only [Except.map,Except.mapError]
          rw [stepped,ih]
          rfl

/-- After an accepted text and a line feed the scanner is back at its start, as many lines further
down as the text has lines. -/
theorem Scans.restart {source : Option String} {tokens : List Token}
    (scans : Scans (start source) text final) (finished : final.finish = .ok tokens) :
    final.skip ['\n'] =
      (start source).placed (Position.down (1 + text.count '\n')) tokens.reverse := by
  obtain ⟨round,square,stack,rfl⟩ := finish_eq_ok (scans.balanced (start_balanced source)) finished
  have line := Position.after_line (.start source) text
  have name := Position.after_source (.start source) text
  have place := scans.final_pos
  obtain ⟨pos,_,_,_,done⟩ := final
  dsimp only at round square stack place
  subst round square stack place
  have below : ((Position.start source).after text).advance '\n' =
      (Position.start source).down (1 + text.count '\n') := by
    rw [Position.advance,if_pos rfl,line,name]
    simp [Position.start,Position.down,Nat.add_comm,Nat.add_left_comm]
  simp only [skip,Position.after_cons,Position.after_nil,start,placed,below,List.reverse_reverse]
  rfl

end Scanner

namespace Token

/-- The line shift that an accepted text and a line feed cause in what follows. -/
def linesBefore (text : String) : Nat := 1 + text.toList.count '\n'

/-- A text behind an accepted one, on a line of its own, is scanned as if it stood alone: its
tokens, or its error, are those of the text itself further down, and the tokens of the first text
come before them. -/
theorem scan_lines {first : String} {source : Option String} {tokens : List Token}
    (accepted : scan first source = .ok tokens) (second : String) :
    scan (first ++ "\n" ++ second) source =
      ((scan second source).map fun more =>
        tokens ++ more.map (mapPos (Position.down (linesBefore first)))).mapError
          (SyntaxError.mapPos (Position.down (linesBefore first))) := by
  obtain ⟨final,scans,finished⟩ := Scanner.scans_of_run accepted
  have whole : (first ++ "\n" ++ second).toList = first.toList ++ '\n' :: second.toList := by simp
  rw [scan,whole,scans.run_line,scans.restart finished,
    Scanner.run_placed fun p c => Position.advance_down _ p c]
  simp only [List.reverse_reverse]
  rfl

/-- A list with a comment behind it, and a line with a closer too many. -/
theorem scan_lines_unmatched_closer :
    scan "(a . #\\x) ; note" none = .ok [.list [.atom .symbol "a" ⟨1,2,none⟩,
      .atom .dot "." ⟨1,4,none⟩,.atom .char "x" ⟨1,6,none⟩] ⟨1,1,none⟩] ∧
    scan ("(a . #\\x) ; note" ++ "\n" ++ "'b)") none = .error ⟨.unmatchedCloser,⟨2,3,none⟩⟩ := by
  have accepted : scan "(a . #\\x) ; note" none = .ok [.list [.atom .symbol "a" ⟨1,2,none⟩,
      .atom .dot "." ⟨1,4,none⟩,.atom .char "x" ⟨1,6,none⟩] ⟨1,1,none⟩] := rfl
  exact ⟨accepted,(scan_lines accepted "'b)").trans rfl⟩

end Token
end MiniScheme
