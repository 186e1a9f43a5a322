import MiniScheme.Proofs.Token.Render

/-! Texts inside texts. What the scanner makes of a text that is complete in itself does not depend
on what it has open: the text adds its own tokens to whatever waits for them. So texts can be put
together, in lists and behind quote marks, and their tokens are put together in the same way. -/
namespace MiniScheme

namespace Lexeme

/-- A word that is no comment may stand before anything that ends words. -/
theorem Spelled.followed {word rest more : List Char} {lexeme : Lexeme}
    (spelled : Spelled word lexeme rest) (plain : ';' ∉ word) (border : atEnd more = true) :
    Spelled word lexeme (rest ++ more) := by
  cases spelled with
  | blank blank => exact .blank blank
  | comment => exact absurd (.head _) plain
  | opener bracket => exact .opener bracket
  | closer bracket => exact .closer bracket
  | quoteMark mark => exact .quoteMark mark
  | @atom kind text _ admitted follows =>
    refine .atom admitted ?_
    cases rest with
    | nil => cases kind <;> first | exact border | contradiction
    | cons c rest => exact follows

theorem Lexes.followed {text more : List Char} {lexemes : List Lexeme} (lexes : Lexes text lexemes [])
    (plain : ';' ∉ text) (border : atEnd more = true) : Lexes text lexemes more := by
  generalize ends : ([] : List Char) = rest at lexes
  induction lexes with
  | nil => exact .nil
  | gap spelled _ ih =>
    subst ends
    simp only [List.mem_append,not_or] at plain
    rw [List.append_nil] at spelled
    exact .gap (spelled.followed plain.1 border) (ih plain.2 rfl)
  | word spelled _ ih =>
    subst ends
    simp only [List.mem_append,not_or] at plain
    rw [List.append_nil] at spelled
    exact .word (spelled.followed plain.1 border) (ih plain.2 rfl)

end Lexeme

namespace Scanner

open Lexeme

/-- The scanner on top of another one: what it has open lies above what that has open, and what it
has finished has been handed down. -/
def within (s base : Scanner) : Scanner where
  pos := s.pos
  round := s.round + base.round
  square := s.square + base.square
  stack := s.stack ++ (base.addAll s.done.reverse).stack
  done := (base.addAll s.done.reverse).done

variable {s next final : Scanner} {lexeme : Lexeme} {lexemes : List Lexeme}

theorem addAll_concat (base : Scanner) (tokens : List Token) (token : Token) :
    base.addAll (tokens ++ [token]) = (base.addAll tokens).add token := by
  simp [addAll]

theorem deliver_within (base : Scanner) (token : Token) (stack : List Opening)
    (done : List Token) :
    deliver token (stack ++ (base.addAll done.reverse).stack) (base.addAll done.reverse).done =
      ((deliver token stack done).1 ++
          (base.addAll (deliver token stack done).2.reverse).stack,
        (base.addAll (deliver token stack done).2.reverse).done) := by
  induction stack generalizing token with
  | nil =>
    simp only [deliver,List.reverse_cons,addAll_concat,List.nil_append]
    rfl
  | cons opening stack ih =>
    cases opening with
    | list items pos => rfl
    | quote pos =>
      simp only [List.cons_append,deliver]
      split
      · rfl
      · exact ih _
    | vectorQuote pos => exact ih _

theorem add_within (s base : Scanner) (token : Token) :
    (s.within base).add token = (s.add token).within base := by
  simp only [add,within,deliver_within]

theorem setCount_within (s base : Scanner) (n : Nat) (bracket : Bracket) :
    (s.within base).setCount (n + base.count bracket) bracket =
      (s.setCount n bracket).within base := by
  cases bracket <;> rfl

theorem count_within (s base : Scanner) (bracket : Bracket) :
    (s.within base).count bracket = s.count bracket + base.count bracket := by
  cases bracket <;> rfl

/-- A closer of a counted shape ends the list on top of the stack. -/
theorem take_closer_of_top {bracket : Bracket} {items : List Token} {pos : Position}
    {stack : List Opening} (open_ : 0 < s.count bracket)
    (top : s.stack = .list items pos :: stack) :
    s.take (.closer bracket) = .ok
      ({ s.setCount (s.count bracket - 1) bracket with stack }.add (.list items.reverse pos)) := by
  have same : (s.setCount (s.count bracket - 1) bracket).stack = s.stack := by
    cases bracket <;> rfl
  rw [take,if_neg (Nat.ne_of_gt open_),close,same,top]

/-- A lexeme that can be taken can be taken on top of anything. -/
theorem take_within (taken : s.take lexeme = .ok next) (base : Scanner) :
    (s.within base).take lexeme = .ok (next.within base) := by
  cases lexeme with
  | gap | quoteMark => cases taken; rfl
  | atom kind text => cases taken; exact congrArg Except.ok (add_within s base _)
  | opener bracket =>
    cases taken
    rw [take,count_within,Nat.add_right_comm,setCount_within]
    cases bracket <;> rfl
  | closer bracket =>
    obtain ⟨open_,items,pos,stack,top,rfl⟩ := take_closer taken
    have counted : 0 < (s.within base).count bracket := by
      rw [count_within]
      omega
    have opened : (s.within base).stack =
        .list items pos :: (stack ++ (base.addAll s.done.reverse).stack) := by
      rw [within,top]
      rfl
    have fewer : (s.within base).count bracket - 1 =
        s.count bracket - 1 + base.count bracket := by
      rw [count_within]
      omega
    rw [take_closer_of_top counted opened,fewer,setCount_within,← add_within]
    cases bracket <;> rfl

theorem takeAll_within (taken : s.takeAll lexemes = .ok final) (base : Scanner) :
    (s.within base).takeAll lexemes = .ok (final.within base) := by
  induction lexemes generalizing s with
  | nil => cases taken; rfl
  | cons lexeme lexemes ih =>
    obtain ⟨next,first,rest⟩ := takeAll_cons_ok taken
    rw [takeAll_cons (take_within first base)]
    exact ih rest

/-- A scanner that counts its own lists only never reaches below itself. -/
theorem take_alone (balanced : s.Balanced) {base : Scanner}
    (closed : ∀ bracket, base.count bracket = 0) (taken : (s.within base).take lexeme = .ok next) :
    ∃ after, s.take lexeme = .ok after ∧ next = after.within base := by
  have alone : ∃ after, s.take lexeme = .ok after := by
    cases lexeme with
    | gap | quoteMark | atom | opener => exact ⟨_,rfl⟩
    | closer bracket =>
      obtain ⟨open_,items,pos,stack,top,-⟩ := take_closer taken
      rw [count_within,closed,Nat.add_zero] at open_
      cases own : s.stack with
      | nil =>
        -- without an open list of its own it has no count to take from
        rw [Balanced,own] at balanced
        cases bracket <;> simp [count] at open_ balanced <;> omega
      | cons opening below =>
        simp only [within,own,List.cons_append,List.cons.injEq] at top
        rw [top.1] at own
        exact ⟨_,take_closer_of_top open_ own⟩
  obtain ⟨after,first⟩ := alone
  rw [take_within first] at taken
  exact ⟨after,first,(Except.ok.inj taken).symm⟩

theorem takeAll_alone (balanced : s.Balanced) {base : Scanner}
    (closed : ∀ bracket, base.count bracket = 0)
    (taken : (s.within base).takeAll lexemes = .ok final) :
    ∃ after, s.takeAll lexemes = .ok after ∧ after.Balanced ∧ final = after.within base := by
  induction lexemes generalizing s with
  | nil => cases taken; exact ⟨s,rfl,balanced,rfl⟩
  | cons lexeme lexemes ih =>
    obtain ⟨_,first,rest⟩ := takeAll_cons_ok taken
    obtain ⟨next,step,rfl⟩ := take_alone balanced closed first
    obtain ⟨after,steps,kept,rfl⟩ := ih (take_balanced balanced step) rest
    exact ⟨after,(takeAll_cons step).trans steps,kept,rfl⟩

/-- The lexemes of a scanned text lead from state to state, up to places. -/
theorem Scans.lexes {text : List Char} (scans : Scans s text final) :
    ∃ lexemes, Lexes text lexemes [] ∧ s.bare.takeAll lexemes = .ok final.bare := by
  induction scans with
  | nil => exact ⟨[],.nil,rfl⟩
  | @word s next final word rest lexeme spelled taken _ ih =>
    obtain ⟨lexemes,lexes,steps⟩ := ih
    have step : s.bare.take lexeme = .ok next.bare := by
      rw [bare,take_placed,taken]
      rfl
    rw [← List.append_nil rest] at spelled
    exact ⟨lexeme :: lexemes,.word spelled lexes,(takeAll_cons step).trans steps⟩

/-- A scanner that has read nothing. -/
def unread : Scanner := ⟨.nowhere,0,0,[],[]⟩

/-- A scanner that has read a quote mark. -/
def quoting : Scanner := ⟨.nowhere,0,0,[.quote .nowhere],[]⟩

/-- The lexemes behind a quote mark at the start of a text. -/
theorem Scans.behind_quoteMark {source : Option String} {text : List Char}
    (scans : Scans (start source) ('\x27' :: text) final) :
    ∃ lexemes, Lexes text lexemes [] ∧ quoting.takeAll lexemes = .ok final.bare := by
  generalize whole : '\x27' :: text = all at scans
  cases scans with
  | nil => contradiction
  | @word _ next _ word rest lexeme spelled taken scans =>
    obtain ⟨c,tail,rfl⟩ := spelled_cons spelled
    obtain ⟨rfl,rfl⟩ := List.cons.inj whole
    have reading : Lexeme.read '\x27' (tail ++ rest) = .ok ⟨.quoteMark,1⟩ := rfl
    obtain ⟨rfl,size⟩ := Reading.mk.inj (Except.ok.inj ((read_spelled spelled).symm.trans reading))
    obtain rfl : tail = [] := List.eq_nil_of_length_eq_zero (by omega)
    cases taken
    exact scans.lexes

/-- Tokens change neither the place nor the counts. -/
theorem addAll_eq (base : Scanner) (tokens : List Token) :
    base.addAll tokens =
      { base with stack := (base.addAll tokens).stack, done := (base.addAll tokens).done } := by
  induction tokens generalizing base with
  | nil => rfl
  | cons token tokens ih => exact ih (base.add token)

@[simp] theorem addAll_pos (base : Scanner) (tokens : List Token) :
    (base.addAll tokens).pos = base.pos := by
  rw [addAll_eq]

/-- A scanner with nothing open has done no more than hand its tokens down. -/
theorem within_complete {base : Scanner} (balanced : s.Balanced) (complete : s.stack = [])
    (place : s.pos = base.pos) : s.within base = base.addAll s.done.reverse := by
  have counts : s.round = 0 ∧ s.square = 0 := by
    rw [Balanced,complete,List.countP_nil] at balanced
    omega
  rw [addAll_eq,within,complete,counts.1,counts.2,place]
  simp

end Scanner

/-- `Spells text tokens`: before anything that ends words, the text falls into lexemes that add
these tokens to whatever was scanned before, all at one place. -/
def Spells (text : List Char) (tokens : List Token) : Prop :=
  ∃ lexemes, (∀ rest, Lexeme.atEnd rest = true → Lexeme.Lexes text lexemes rest) ∧
    ∀ base : Scanner, base.pos = .nowhere → base.takeAll lexemes = .ok (base.addAll tokens)

namespace Spells

open Lexeme

variable {text more : List Char} {tokens others : List Token}

theorem atom {kind : AtomKind} {text : String} (admitted : kind.admits text = true)
    (word : ∀ rest, kind.border rest = atEnd rest) :
    Spells (kind.spelling text) [.atom kind text .nowhere] := by
  refine ⟨[.atom kind text],?_,?_⟩
  · intro rest border
    exact .one (.atom admitted ((word rest).trans border))
  · rintro ⟨_,round,square,stack,done⟩ rfl
    rfl

/-- Texts apart from each other add their tokens one after the other. -/
theorem append (first : Spells text tokens) (second : Spells more others) :
    Spells (text ++ ' ' :: more) (tokens ++ others) := by
  obtain ⟨before,lexes,added⟩ := first
  obtain ⟨after,lexes',added'⟩ := second
  refine ⟨before ++ after,?_,?_⟩
  · intro rest border
    exact (lexes _ rfl).append ((Lexes.blank _).append (lexes' rest border))
  · intro base place
    rw [Scanner.takeAll_append (added base place),added' _ (by rw [Scanner.addAll_pos,place])]
    simp [Scanner.addAll]

theorem dotted (tail : Spells text tokens) :
    Spells ('.' :: ' ' :: text) (.atom .dot "." .nowhere :: tokens) := by
  obtain ⟨lexemes,lexes,added⟩ := tail
  refine ⟨.atom .dot "." :: lexemes,?_,?_⟩
  · intro rest border
    have dot : Lexes ['.'] [.atom .dot "."] (' ' :: text ++ rest) := Token.lexes_dot rfl
    exact dot.append ((Lexes.blank _).append (lexes rest border))
  · rintro ⟨_,round,square,stack,done⟩ rfl
    exact added _ rfl

/-- Brackets around a text make a list of its tokens. -/
theorem list (inside : Spells text tokens) :
    Spells ('(' :: text ++ [')']) [.list tokens .nowhere] := by
  obtain ⟨lexemes,lexes,added⟩ := inside
  refine ⟨.opener .round :: lexemes ++ [.closer .round],fun rest _ => (lexes _ rfl).enclose,?_⟩
  rintro ⟨_,round,square,stack,done⟩ rfl
  let base : Scanner := ⟨.nowhere,round,square,stack,done⟩
  have opening : base.take (.opener .round) =
      .ok { base with round := round + 1, stack := .list [] .nowhere :: stack } := rfl
  have items := added { base with round := round + 1, stack := .list [] .nowhere :: stack } rfl
  rw [Scanner.addAll_list { base with round := round + 1 },List.append_nil] at items
  rw [List.cons_append,Scanner.takeAll_cons opening,Scanner.takeAll_append items]
  have counted : 0 < Scanner.count
      { base with round := round + 1, stack := .list tokens.reverse .nowhere :: stack } .round :=
    Nat.succ_pos round
  have closing := Scanner.take_closer_of_top counted rfl
  rw [List.reverse_reverse] at closing
  exact Scanner.takeAll_cons closing

theorem quote {token : Token} (datum : Spells text [token]) (plain : token.isSharp = false) :
    Spells ('\x27' :: text) [.quote .list token .nowhere] := by
  obtain ⟨lexemes,lexes,added⟩ := datum
  refine ⟨.quoteMark :: lexemes,?_,?_⟩
  · intro rest border
    exact (Token.lexes_quoteMark _).append (lexes rest border)
  · rintro ⟨_,round,square,stack,done⟩ rfl
    have mark : Scanner.take ⟨.nowhere,round,square,stack,done⟩ .quoteMark =
        .ok ⟨.nowhere,round,square,.quote .nowhere :: stack,done⟩ := rfl
    rw [Scanner.takeAll_cons mark,added _ rfl]
    simp [Scanner.addAll,Scanner.add,Scanner.deliver,plain]

/-- A text on its own is scanned to its tokens. -/
theorem scan {text : String} (spells : Spells text.toList tokens) (source : Option String) :
    ∃ found, Token.scan text source = .ok found ∧ found.map Token.bare = tokens.map Token.bare := by
  obtain ⟨lexemes,lexes,added⟩ := spells
  have finished : ((Scanner.start source).bare.addAll tokens).finish = .ok tokens := by
    rw [Scanner.addAll_top rfl]
    simp [Scanner.finish,Scanner.bare,Scanner.placed,Scanner.start]
  have same : (Scanner.start source).bare.bare = (Scanner.start source).bare := rfl
  obtain ⟨final,scans,places⟩ := Scanner.scans_of_lexes (lexes [] rfl) same.symm (added _ rfl)
  obtain ⟨found,accepted,places⟩ := Scanner.finish_bare places finished
  exact ⟨found,scans.run_eq.trans accepted,places⟩

end Spells

namespace Token

/-- `Quotes kind inner tokens`: the tokens that a quote mark of this kind takes up. A vector has its
mark before it. -/
inductive Quotes : QuoteKind → Token → List Token → Prop where
  | datum {inner : Token} : inner.isSharp = false → Quotes .list inner [inner]
  | vector {mark inner : Token} : mark.isSharp = true → Quotes .vector inner [mark,inner]

/-- Tokens that leave nothing but one token behind a quote mark. -/
theorem quotes_of_added {tokens : List Token} {token : Token} {final : Scanner}
    (added : Scanner.quoting.addAll tokens = final)
    (stack : final.stack = []) (done : final.done = [token]) :
    ∃ kind inner, token = .quote kind inner .nowhere ∧ Quotes kind inner tokens := by
  have finished (rest : List Token) (first : Token) :
      (Scanner.mk .nowhere 0 0 [] [first]).addAll rest = final → rest = [] ∧ token = first := by
    intro same
    rw [← same,Scanner.addAll_top rfl] at done
    cases rest with
    | nil => exact ⟨rfl,(List.cons.inj done).1.symm⟩
    | cons next rest =>
      have two := congrArg List.length done
      simp at two
  cases tokens with
  | nil => subst added; contradiction
  | cons first tokens =>
    cases sharp : first.isSharp with
    | false =>
      have rest : (Scanner.mk .nowhere 0 0 [] [.quote .list first .nowhere]).addAll tokens = final := by
        rw [← added]
        simp [Scanner.quoting,Scanner.addAll,Scanner.add,Scanner.deliver,sharp]
      obtain ⟨rfl,rfl⟩ := finished tokens _ rest
      exact ⟨.list,first,rfl,.datum sharp⟩
    | true =>
      cases tokens with
      | nil =>
        subst added
        simp [Scanner.quoting,Scanner.addAll,Scanner.add,Scanner.deliver,sharp] at stack
      | cons inner tokens =>
        have rest : (Scanner.mk .nowhere 0 0 [] [.quote .vector inner .nowhere]).addAll tokens =
            final := by
          rw [← added]
          simp [Scanner.quoting,Scanner.addAll,Scanner.add,Scanner.deliver,sharp]
        obtain ⟨rfl,rfl⟩ := finished tokens _ rest
        exact ⟨.vector,inner,rfl,.vector sharp⟩

theorem bare_eq_quote {token inner : Token} {kind : QuoteKind} {place : Position}
    (same : token.bare = .quote kind inner place) :
    ∃ datum pos, token = .quote kind datum pos ∧ datum.bare = inner := by
  cases token with
  | atom | list => contradiction
  | quote kind datum pos =>
    obtain ⟨rfl,inside,-⟩ := Token.quote.inj same
    exact ⟨datum,pos,rfl,inside⟩

/-- A text without comments that is one token behind a quote mark spells the tokens that the quote
takes up, wherever it stands. -/
theorem spells_of_quoted {text : String} {source : Option String} {token : Token}
    (plain : ';' ∉ text.toList) (single : scan ("'" ++ text) source = .ok [token]) :
    ∃ kind inner pos tokens, token = .quote kind inner pos ∧ Quotes kind inner.bare tokens ∧
      Spells text.toList tokens := by
  obtain ⟨final,scans,finished⟩ := Scanner.scans_of_run single
  obtain ⟨-,-,stack,done⟩ :=
    Scanner.finish_eq_ok (scans.balanced (Scanner.start_balanced source)) finished
  have whole : ("'" ++ text).toList = '\x27' :: text.toList := by simp
  rw [whole] at scans
  obtain ⟨lexemes,lexes,steps⟩ := scans.behind_quoteMark
  have uncounted (bracket : Bracket) : Scanner.quoting.count bracket = 0 := by cases bracket <;> rfl
  obtain ⟨alone,taken,balanced,rest⟩ :=
    Scanner.takeAll_alone (s := .unread) rfl uncounted steps
  have place : alone.pos = .nowhere := congrArg Scanner.pos rest.symm
  have opened : alone.stack ++ (Scanner.quoting.addAll alone.done.reverse).stack = [] := by
    refine (congrArg Scanner.stack rest).symm.trans ?_
    simp [Scanner.bare,Scanner.placed,stack]
  obtain ⟨complete,below⟩ := List.append_eq_nil_iff.mp opened
  have handed : (Scanner.quoting.addAll alone.done.reverse).done = [token.bare] := by
    refine (congrArg Scanner.done rest).symm.trans ?_
    simp [Scanner.bare,Scanner.placed,List.reverse_eq_iff.mp done.symm,Token.bare]
  obtain ⟨kind,inner,shape,quotes⟩ := quotes_of_added rfl below handed
  obtain ⟨inner,pos,rfl,rfl⟩ := bare_eq_quote shape
  refine ⟨kind,inner,pos,_,rfl,quotes,lexemes,?_,?_⟩
  · intro rest border
    exact lexes.followed plain border
  · intro base nowhere
    have steps := Scanner.takeAll_within taken base
    have first : Scanner.unread.within base = base :=
      Scanner.within_complete (s := .unread) rfl rfl nowhere.symm
    have last := Scanner.within_complete balanced complete (place.trans nowhere.symm)
    rwa [first,last] at steps

end Token
end MiniScheme
