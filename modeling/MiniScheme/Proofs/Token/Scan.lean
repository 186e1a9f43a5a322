import MiniScheme.Proofs.Token.Spelling
import MiniScheme.Token.Scanner

/-! Scanning as a sequence of spelled words. `Scans` is the path of scanner states along a text
that is accepted, so what each lexeme preserves holds at the end of the text. The bracket counts
stand for the lists on the stack, and places are only ever copied. -/
namespace MiniScheme

namespace Position

/-- The same place some lines further down. -/
def down (k : Nat) (p : Position) : Position := { p with line := p.line + k }

theorem advance_down (k : Nat) (p : Position) (c : Char) :
    (p.down k).advance c = (p.advance c).down k := by
  unfold advance down
  split
  · simp only [Nat.add_right_comm]
  · rfl

theorem after_line (p : Position) (text : List Char) :
    (p.after text).line = p.line + text.count '\n' := by
  induction text generalizing p with
  | nil => rfl
  | cons c text ih =>
    rw [after_cons,ih,List.count_cons]
    by_cases newline : c = '\n' <;> simp [advance,newline]
    omega

theorem after_source (p : Position) (text : List Char) : (p.after text).source = p.source := by
  induction text generalizing p with
  | nil => rfl
  | cons c text ih =>
    rw [after_cons,ih,advance]
    split <;> rfl

end Position

namespace Scanner

open Lexeme

/-- Steps over all characters of a lexeme. -/
def skip (s : Scanner) (word : List Char) : Scanner := { s with pos := s.pos.after word }

theorem run_pending (word rest : List Char) (s : Scanner) :
    run (word ++ rest) word.length s = run rest 0 (s.skip word) := by
  induction word generalizing s with
  | nil => rfl
  | cons c word ih =>
    rw [List.cons_append,List.length_cons,run,ih]
    rfl

variable {word rest text : List Char} {lexeme : Lexeme} {s next final : Scanner}

/-- No lexeme is empty, so scanning always moves on. -/
theorem spelled_cons (spelled : Spelled word lexeme rest) : ∃ c tail, word = c :: tail := by
  cases spelled with
  | blank | opener | closer | quoteMark => exact ⟨_,_,rfl⟩
  | comment => exact ⟨_,_,rfl⟩
  | @atom kind atomText _ admitted _ =>
    cases kind with
    | char | string => exact ⟨_,_,rfl⟩
    | number | boolean | symbol | dot | sharp =>
      cases shape : atomText.toList with
      | nil =>
        simp [AtomKind.admits,shape,isPlainNumber,startsNumber,isMarkedNumber,isSymbolWord] at admitted
      | cons c tail => exact ⟨c,tail,shape⟩

theorem read_spelled {c : Char} {tail : List Char} (spelled : Spelled (c :: tail) lexeme rest) :
    read c (tail ++ rest) = .ok ⟨lexeme,tail.length + 1⟩ :=
  read_eq_ok_iff.mpr ⟨c :: tail,rest,rfl,rfl,spelled⟩

/-- A word that the scanner can take leads to the state after it. -/
theorem run_word (spelled : Spelled word lexeme rest) (taken : s.take lexeme = .ok next) :
    run (word ++ rest) 0 s = run rest 0 (next.skip word) := by
  obtain ⟨c,tail,rfl⟩ := spelled_cons spelled
  rw [List.cons_append,run,read_spelled spelled]
  simp only [taken,Nat.add_sub_cancel]
  rw [run_pending]
  rfl

/-- `Scans s text final`: from `s` the scanner takes all words of `text` and gets to `final`. -/
inductive Scans : Scanner → List Char → Scanner → Prop where
  | nil {s : Scanner} : Scans s [] s
  | word {s next final : Scanner} {word rest : List Char} {lexeme : Lexeme} :
      Spelled word lexeme rest → s.take lexeme = .ok next → Scans (next.skip word) rest final →
      Scans s (word ++ rest) final

theorem Scans.run_eq (scans : Scans s text final) : run text 0 s = final.finish := by
  induction scans with
  | nil => rfl
  | word spelled taken _ ih => rw [run_word spelled taken,ih]

theorem scans_of_run {tokens : List Token} (accepted : run text 0 s = .ok tokens) :
    ∃ final, Scans s text final ∧ final.finish = .ok tokens := by
  induction length : text.length using Nat.strong_induction_on generalizing text s with
  | _ n ih =>
    subst length
    cases text with
    | nil => exact ⟨s,.nil,accepted⟩
    | cons c cs =>
      rw [run] at accepted
      split at accepted
      · contradiction
      next reading found =>
      split at accepted
      · contradiction
      next next taken =>
      obtain ⟨word,rest,whole,size,spelled⟩ := read_eq_ok_iff.mp found
      obtain ⟨d,tail,rfl⟩ := spelled_cons spelled
      rw [List.cons_append,List.cons.injEq] at whole
      obtain ⟨rfl,rfl⟩ := whole
      rw [size,List.length_cons,Nat.add_sub_cancel,run_pending] at accepted
      have shorter : rest.length < (c :: (tail ++ rest)).length := by
        simp only [List.length_cons,List.length_append]
        omega
      obtain ⟨final,scans,finished⟩ := ih rest.length shorter accepted rfl
      exact ⟨final,.word spelled taken scans,finished⟩

/-- What every word preserves holds at the end of a scanned text. -/
theorem Scans.preserves (property : Scanner → List Char → Prop)
    (step : ∀ {s next : Scanner} {word rest : List Char} {lexeme : Lexeme},
      Spelled word lexeme rest → s.take lexeme = .ok next → property s (word ++ rest) →
        property (next.skip word) rest)
    (scans : Scans s text final) (start : property s text) : property final [] := by
  induction scans with
  | nil => exact start
  | word spelled taken _ ih => exact ih (step spelled taken start)

end Scanner

def Opening.isList : Opening → Bool
  | .list _ _ => true
  | _ => false

namespace Scanner

/-- The two counts together are the number of open lists. -/
def Balanced (s : Scanner) : Prop := s.round + s.square = s.stack.countP Opening.isList

variable {lexeme : Lexeme} {s next final : Scanner} {text : List Char}

/-- Handing over a token ends quotes but no list. -/
theorem deliver_lists (token : Token) (stack : List Opening) (done : List Token) :
    (deliver token stack done).1.countP Opening.isList = stack.countP Opening.isList := by
  induction stack generalizing token with
  | nil => rfl
  | cons opening stack ih =>
    cases opening with
    | list items pos => rfl
    | quote pos =>
      rw [deliver]
      split
      · rfl
      · exact ih _
    | vectorQuote pos => exact ih _

theorem add_balanced {token : Token} (balanced : s.Balanced) : (s.add token).Balanced :=
  balanced.trans (deliver_lists token s.stack s.done).symm

/-- A closer is taken off its own count and off the stack. -/
theorem take_closer {bracket : Bracket} (taken : s.take (.closer bracket) = .ok next) :
    0 < s.count bracket ∧ ∃ items pos stack, s.stack = .list items pos :: stack ∧
      next = { s.setCount (s.count bracket - 1) bracket with stack }.add (.list items.reverse pos) := by
  rw [take] at taken
  split at taken
  · contradiction
  next open_ =>
    refine ⟨Nat.pos_of_ne_zero open_,?_⟩
    have same : (s.setCount (s.count bracket - 1) bracket).stack = s.stack := by cases bracket <;> rfl
    rw [close] at taken
    split at taken
    next items pos stack top =>
      rw [same] at top
      exact ⟨items,pos,stack,top,(Except.ok.inj taken).symm⟩
    · contradiction
    · contradiction
    · contradiction

theorem take_balanced (balanced : s.Balanced) (taken : s.take lexeme = .ok next) : next.Balanced := by
  cases lexeme with
  | gap => cases taken; exact balanced
  | opener bracket =>
    cases taken
    cases bracket <;> simp only [Balanced,setCount,count,List.countP_cons,Opening.isList] at * <;> grind
  | closer bracket =>
    obtain ⟨pos,items,place,stack,top,rfl⟩ := take_closer taken
    apply add_balanced
    rw [Balanced,top,List.countP_cons] at balanced
    cases bracket <;> simp only [Balanced,setCount,count,Opening.isList] at * <;> grind
  | quoteMark => cases taken; exact balanced
  | atom kind text => cases taken; exact add_balanced balanced

theorem Scans.balanced (scans : Scans s text final) (start : s.Balanced) : final.Balanced := by
  refine scans.preserves (fun s _ => s.Balanced) ?_ start
  intro s next word rest lexeme _ taken balanced
  have kept : next.Balanced := take_balanced balanced taken
  exact kept

/-- If the text may end in a balanced state then nothing at all is open. -/
theorem finish_eq_ok {tokens : List Token} (balanced : s.Balanced) (finished : s.finish = .ok tokens) :
    s.round = 0 ∧ s.square = 0 ∧ s.stack = [] ∧ tokens = s.done.reverse := by
  rw [finish] at finished
  split at finished
  · contradiction
  · contradiction
  next noQuote noVector =>
    split at finished
    · contradiction
    next closed =>
      have counts : s.round = 0 ∧ s.square = 0 := by simpa using closed
      refine ⟨counts.1,counts.2,?_,(Except.ok.inj finished).symm⟩
      rw [Balanced,counts.1,counts.2] at balanced
      cases shape : s.stack with
      | nil => rfl
      | cons opening stack =>
        cases opening with
        | list items pos =>
          rw [shape,List.countP_cons_of_pos rfl] at balanced
          omega
        | quote pos => exact absurd shape (noQuote pos stack)
        | vectorQuote pos => exact absurd shape (noVector pos stack)

theorem start_balanced (source : Option String) : (start source).Balanced := rfl

end Scanner

namespace Token

/-- A word on its own is one token. -/
theorem scan_atom {kind : AtomKind} {w : List Char}
    (spelled : Lexeme.Spelled w (.atom kind (.ofList w)) []) (source : Option String) :
    scan (.ofList w) source = .ok [.atom kind (.ofList w) (.start source)] := by
  have scans : Scanner.Scans (.start source) (w ++ []) _ := .word spelled rfl .nil
  rw [List.append_nil] at scans
  rw [scan,String.toList_ofList,scans.run_eq]
  rfl

mutual

/-- Moves a token and all tokens inside it. -/
def mapPos (f : Position → Position) : Token → Token
  | atom kind text pos => atom kind text (f pos)
  | list items pos => list (mapPosAll f items) (f pos)
  | quote kind inner pos => quote kind (inner.mapPos f) (f pos)

def mapPosAll (f : Position → Position) : List Token → List Token
  | [] => []
  | token :: tokens => token.mapPos f :: mapPosAll f tokens

end

@[simp] theorem mapPosAll_eq_map (f : Position → Position) (tokens : List Token) :
    mapPosAll f tokens = tokens.map (mapPos f) := by
  induction tokens with
  | nil => rfl
  | cons token tokens ih => rw [mapPosAll,ih,List.map_cons]

@[simp] theorem isSharp_mapPos (f : Position → Position) (token : Token) :
    (token.mapPos f).isSharp = token.isSharp := by
  cases token with
  | atom kind text pos => cases kind <;> rfl
  | list | quote => rfl

theorem mapPos_mapPos (f g : Position → Position) :
    (token : Token) → (token.mapPos f).mapPos g = token.mapPos fun pos => g (f pos)
  | atom _ _ _ => rfl
  | quote _ inner _ => by rw [mapPos,mapPos,mapPos,mapPos_mapPos f g inner]
  | list items pos => by
    rw [mapPos,mapPos,mapPos]
    simp only [mapPosAll_eq_map,List.map_map]
    have inside : ∀ token ∈ items, (mapPos g ∘ mapPos f) token = token.mapPos fun pos => g (f pos) := by
      intro token member
      exact mapPos_mapPos f g token
    rw [List.map_congr_left inside]

/-- A token without its places. -/
def bare (token : Token) : Token := token.mapPos fun _ => .nowhere

theorem bare_mapPos (f : Position → Position) (token : Token) :
    (token.mapPos f).bare = token.bare := by
  rw [bare,mapPos_mapPos]
  rfl

end Token

def Opening.mapPos (f : Position → Position) : Opening → Opening
  | .list items pos => .list (items.map (Token.mapPos f)) (f pos)
  | .quote pos => .quote (f pos)
  | .vectorQuote pos => .vectorQuote (f pos)

def SyntaxError.mapPos (f : Position → Position) (e : SyntaxError) : SyntaxError :=
  { e with pos := f e.pos }

/-- Moving places makes no success of an error. -/
theorem SyntaxError.ok_of_moved {α β : Type} {f : Position → Position} {g : α → β} {b : β}
    {result : Except SyntaxError α} (moved : (result.map g).mapError (mapPos f) = .ok b) :
    ∃ a, result = .ok a ∧ g a = b := by
  cases result with
  | error e => contradiction
  | ok a => exact ⟨a,rfl,Except.ok.inj moved⟩

namespace Scanner

/-- The scanner with all places moved by `f`, and with tokens before those it has finished. -/
def placed (f : Position → Position) (before : List Token) (s : Scanner) : Scanner :=
  ⟨f s.pos,s.round,s.square,s.stack.map (Opening.mapPos f),s.done.map (Token.mapPos f) ++ before⟩

variable (f : Position → Position) (before : List Token)

theorem deliver_placed (token : Token) (stack : List Opening) (done : List Token) :
    deliver (token.mapPos f) (stack.map (Opening.mapPos f)) (done.map (Token.mapPos f) ++ before) =
      ((deliver token stack done).1.map (Opening.mapPos f),
        (deliver token stack done).2.map (Token.mapPos f) ++ before) := by
  induction stack generalizing token with
  | nil => rfl
  | cons opening stack ih =>
    cases opening with
    | list items pos => rfl
    | quote pos =>
      simp only [List.map_cons,Opening.mapPos,deliver,Token.isSharp_mapPos]
      split
      · rfl
      · exact ih (.quote .list token pos)
    | vectorQuote pos => exact ih (.quote .vector token pos)

theorem add_placed (s : Scanner) (token : Token) :
    (s.placed f before).add (token.mapPos f) = (s.add token).placed f before := by
  simp only [add,placed,deliver_placed]

theorem close_placed (s : Scanner) :
    (s.placed f before).close =
      ((s.close).map (placed f before)).mapError (SyntaxError.mapPos f) := by
  obtain ⟨pos,round,square,stack,done⟩ := s
  cases stack with
  | nil => rfl
  | cons opening stack =>
    cases opening with
    | list items place =>
      have moved := add_placed f before ⟨pos,round,square,stack,done⟩ (.list items.reverse place)
      rw [Token.mapPos,Token.mapPosAll_eq_map,List.map_reverse] at moved
      exact congrArg Except.ok moved
    | quote place | vectorQuote place => rfl

/-- Places are copied and never looked at. -/
theorem take_placed (s : Scanner) (lexeme : Lexeme) :
    (s.placed f before).take lexeme =
      ((s.take lexeme).map (placed f before)).mapError (SyntaxError.mapPos f) := by
  cases lexeme with
  | gap => rfl
  | opener bracket => cases bracket <;> rfl
  | closer bracket =>
    have count : (s.placed f before).count bracket = s.count bracket := by cases bracket <;> rfl
    have counted (n : Nat) : (s.placed f before).setCount n bracket =
        (s.setCount n bracket).placed f before := by cases bracket <;> rfl
    rw [take,take,count]
    split
    · rfl
    · rw [counted,close_placed]
  | quoteMark => rfl
  | atom kind text => exact congrArg Except.ok (add_placed f before s (.atom kind text s.pos))

theorem finish_placed (s : Scanner) :
    (s.placed f before).finish =
      ((s.finish).map fun tokens => before.reverse ++ tokens.map (Token.mapPos f)).mapError
        (SyntaxError.mapPos f) := by
  obtain ⟨pos,round,square,stack,done⟩ := s
  have closed : (if 0 < round || 0 < square then Except.error ⟨.unclosedList,f pos⟩
        else .ok (done.map (Token.mapPos f) ++ before).reverse) =
      ((if 0 < round || 0 < square then Except.error ⟨.unclosedList,pos⟩ else .ok done.reverse).map
        fun tokens => before.reverse ++ tokens.map (Token.mapPos f)).mapError (SyntaxError.mapPos f) := by
    split
    · rfl
    · simp [Except.map,Except.mapError]
  cases stack with
  | nil => exact closed
  | cons opening stack =>
    cases opening with
    | list items place => exact closed
    | quote place | vectorQuote place => rfl

end Scanner
end MiniScheme
