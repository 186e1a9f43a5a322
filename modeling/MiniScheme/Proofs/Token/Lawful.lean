import MiniScheme.Proofs.Token.Scan

/-! The token trees that scanning can give. A vector mark is always followed by its list: behind a
quote the two are one token, and elsewhere they stand side by side. What the scanner has read so far
is lawful if a list comes next wherever the text goes on with an opening bracket. -/
namespace MiniScheme

namespace Token

def isList : Token → Bool
  | list _ _ => true
  | _ => false

mutual

/-- Trees that a text can have: atoms with texts of their kind, a list behind each vector mark,
and quotes that hold a datum or, behind a vector mark, a list. -/
def Lawful : Token → Prop
  | atom kind text _ => kind.admits text = true
  | list items _ => LawfulAll items
  | quote .list inner _ => inner.isSharp = false ∧ inner.Lawful
  | quote .vector inner _ => inner.isList = true ∧ inner.Lawful

def LawfulAll : List Token → Prop
  | [] => True
  | token :: tokens =>
    token.Lawful ∧ (token.isSharp = true → tokens.head?.any isList = true) ∧ LawfulAll tokens

end

/-- No lawful tokens end in a vector mark, so others may follow. -/
theorem LawfulAll.append {first second : List Token} (left : LawfulAll first)
    (right : LawfulAll second) : LawfulAll (first ++ second) := by
  induction first with
  | nil => exact right
  | cons token tokens ih =>
    obtain ⟨head,mark,tail⟩ := left
    refine ⟨head,?_,ih tail⟩
    intro sharp
    cases tokens with
    | nil => exact absurd (mark sharp) (by decide)
    | cons next tokens => exact mark sharp

/-- What is asked for behind a vector mark need not hold behind another token. -/
theorem no_mark {token : Token} {follows : Prop} (plain : token.isSharp = false)
    (sharp : token.isSharp = true) : follows := by
  rw [plain] at sharp
  contradiction

theorem isList_not_sharp {token : Token} (list : token.isList = true) : token.isSharp = false := by
  cases token with
  | list => rfl
  | atom | quote => contradiction

/-- Tokens read so far, newest first: every vector mark among them has its list behind it, and a
mark at the end gets its list next. -/
def LawfulBefore (nextIsList : Bool) : List Token → Prop
  | [] => True
  | token :: older =>
    token.Lawful ∧ (token.isSharp = true → nextIsList = true) ∧ LawfulBefore token.isList older

theorem LawfulBefore.mono {nextIsList : Bool} {older : List Token} (lawful : LawfulBefore false older) :
    LawfulBefore nextIsList older := by
  cases older with
  | nil => trivial
  | cons token older => exact ⟨lawful.1,fun sharp => absurd (lawful.2.1 sharp) (by decide),lawful.2.2⟩

theorem LawfulBefore.all {older tokens : List Token} (lawful : LawfulAll tokens)
    (before : LawfulBefore (tokens.head?.any isList) older) :
    LawfulAll (older.reverse ++ tokens) := by
  induction older generalizing tokens with
  | nil => exact lawful
  | cons token older ih =>
    obtain ⟨head,mark,before⟩ := before
    rw [List.reverse_cons,List.append_assoc]
    exact ih ⟨head,mark,lawful⟩ before

theorem LawfulBefore.reverse {older : List Token} (before : LawfulBefore false older) :
    LawfulAll older.reverse := by
  have whole : LawfulAll (older.reverse ++ []) := LawfulBefore.all trivial before
  rwa [List.append_nil] at whole

end Token

namespace Scanner

open Lexeme

/-- All tokens on the stack are lawful so far. Below an open list a list comes next, below a quote
a quote does, and a quote with a vector mark waits for a list itself. -/
def LawfulStack (nextIsList : Bool) : List Opening → List Token → Prop
  | [],done => Token.LawfulBefore nextIsList done
  | .list items _ :: stack,done => Token.LawfulBefore nextIsList items ∧ LawfulStack true stack done
  | .quote _ :: stack,done => LawfulStack false stack done
  | .vectorQuote _ :: stack,done => nextIsList = true ∧ LawfulStack false stack done

theorem LawfulStack.mono {nextIsList : Bool} {stack : List Opening} {done : List Token}
    (lawful : LawfulStack false stack done) : LawfulStack nextIsList stack done := by
  cases stack with
  | nil => exact Token.LawfulBefore.mono lawful
  | cons opening stack =>
    cases opening with
    | list items pos => exact ⟨lawful.1.mono,lawful.2⟩
    | quote pos => exact lawful
    | vectorQuote pos => exact absurd lawful.1 (by decide)

theorem deliver_lawful {token : Token} {stack : List Opening} {done : List Token} {nextIsList : Bool}
    (lawful : LawfulStack token.isList stack done) (good : token.Lawful)
    (mark : token.isSharp = true → nextIsList = true) :
    LawfulStack nextIsList (deliver token stack done).1 (deliver token stack done).2 := by
  induction stack generalizing token with
  | nil => exact ⟨good,mark,lawful⟩
  | cons opening stack ih =>
    cases opening with
    | list items pos => exact ⟨⟨good,mark,lawful.1⟩,lawful.2⟩
    | quote pos =>
      rw [deliver]
      split
      next sharp => exact ⟨mark sharp,lawful⟩
      next plain =>
        rw [Bool.not_eq_true] at plain
        exact ih lawful ⟨plain,good⟩ (Token.no_mark rfl)
    | vectorQuote pos => exact ih lawful.2 ⟨lawful.1,good⟩ (Token.no_mark rfl)

/-- Only opening brackets start with an opening bracket. -/
theorem spelled_opener {word rest : List Char} {lexeme : Lexeme} (spelled : Spelled word lexeme rest)
    (head : (word ++ rest).head?.any isOpener = true) : ∃ bracket, lexeme = .opener bracket := by
  obtain ⟨c,tail,rfl⟩ := spelled_cons spelled
  have reading := read_spelled spelled
  have bracket : c = '(' ∨ c = '[' := by simpa [isOpener] using head
  rcases bracket with rfl | rfl
  · exact ⟨.round,(congrArg Reading.lexeme (Except.ok.inj reading)).symm⟩
  · exact ⟨.square,(congrArg Reading.lexeme (Except.ok.inj reading)).symm⟩

/-- Every word keeps the tokens lawful, given that a list comes next where the text goes on with an
opening bracket. -/
theorem take_lawful {s next : Scanner} {word rest : List Char} {lexeme : Lexeme}
    (spelled : Spelled word lexeme rest) (taken : s.take lexeme = .ok next)
    (lawful : LawfulStack ((word ++ rest).head?.any isOpener) s.stack s.done) :
    LawfulStack (rest.head?.any isOpener) next.stack next.done := by
  have noOpener (other : ∀ bracket, lexeme ≠ .opener bracket) : LawfulStack false s.stack s.done := by
    cases head : (word ++ rest).head?.any isOpener with
    | true =>
      obtain ⟨bracket,rfl⟩ := spelled_opener spelled head
      exact absurd rfl (other bracket)
    | false => rwa [head] at lawful
  cases lexeme with
  | gap =>
    cases taken
    exact (noOpener (by simp)).mono
  | opener bracket =>
    have head : (word ++ rest).head?.any isOpener = true := by
      cases spelled
      cases bracket <;> rfl
    rw [head] at lawful
    cases taken
    cases bracket <;> exact ⟨trivial,lawful⟩
  | closer bracket =>
    obtain ⟨_,items,pos,stack,top,rfl⟩ := take_closer taken
    have waiting := noOpener (by simp)
    rw [top] at waiting
    have done : (s.setCount (s.count bracket - 1) bracket).done = s.done := by cases bracket <;> rfl
    simp only [add,done]
    exact deliver_lawful waiting.2 waiting.1.reverse (Token.no_mark rfl)
  | quoteMark =>
    cases taken
    exact noOpener (by simp)
  | atom kind text =>
    cases taken
    cases spelled with
    | atom admitted border =>
      refine deliver_lawful (noOpener (by simp)) admitted ?_
      cases kind with
      | sharp => exact fun _ => border
      | number | string | char | boolean | symbol | dot => exact Token.no_mark rfl

end Scanner

namespace Token

/-- Scanning gives lawful tokens only. -/
theorem scan_lawful {text : String} {source : Option String} {tokens : List Token}
    (accepted : scan text source = .ok tokens) : LawfulAll tokens := by
  obtain ⟨final,scans,finished⟩ := Scanner.scans_of_run accepted
  have balanced := scans.balanced (Scanner.start_balanced source)
  obtain ⟨-,-,stack,rfl⟩ := Scanner.finish_eq_ok balanced finished
  have lawful : Scanner.LawfulStack false final.stack final.done := by
    refine scans.preserves
      (fun s text => Scanner.LawfulStack (text.head?.any Lexeme.isOpener) s.stack s.done) ?_ trivial
    intro s next word rest lexeme spelled taken before
    have after := Scanner.take_lawful spelled taken before
    exact after
  rw [stack] at lawful
  exact LawfulBefore.reverse lawful

end Token
end MiniScheme
