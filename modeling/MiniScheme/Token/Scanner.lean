import MiniScheme.Token.Lexeme

/-! From text to token trees. The scanner keeps the lists and quotes that are still open on a
stack, innermost first, and counts the open brackets of either shape. A closing bracket needs an
open one of its own shape, and ends the innermost list whatever bracket opened that. -/
namespace MiniScheme

/-- Something that waits for more tokens. -/
inductive Opening where
  /-- A list with the items it has so far, newest first. -/
  | list (items : List Token) (pos : Position)
  | quote (pos : Position)
  /-- A quote whose vector mark has been read. -/
  | vectorQuote (pos : Position)
  deriving Repr

structure Scanner where
  /-- The place of the next character. -/
  pos : Position
  round : Nat
  square : Nat
  stack : List Opening
  /-- Finished top-level tokens, newest first. -/
  done : List Token
  deriving Repr

namespace Scanner

def start (source : Option String) : Scanner := ⟨.start source, 0, 0, [], []⟩

def count (s : Scanner) : Bracket → Nat
  | .round => s.round
  | .square => s.square

def setCount (s : Scanner) (n : Nat) : Bracket → Scanner
  | .round => { s with round := n }
  | .square => { s with square := n }

/-- Steps over one character of a lexeme. -/
def step (s : Scanner) (c : Char) : Scanner := { s with pos := s.pos.advance c }

/-- Hands a finished token to whatever waits for it. A vector mark behind a quote belongs to the
quote. -/
def deliver (token : Token) : List Opening → List Token → List Opening × List Token
  | [], done => ([], token :: done)
  | .list items pos :: stack, done => (.list (token :: items) pos :: stack, done)
  | .quote pos :: stack, done =>
    if token.isSharp then (.vectorQuote pos :: stack, done)
    else deliver (.quote .list token pos) stack done
  | .vectorQuote pos :: stack, done => deliver (.quote .vector token pos) stack done

def add (s : Scanner) (token : Token) : Scanner :=
  let (stack, done) := deliver token s.stack s.done
  { s with stack, done }

/-- Ends the innermost open list. A quote that still waits for its datum is incomplete. -/
def close (s : Scanner) : Except SyntaxError Scanner :=
  match s.stack with
  | .list items pos :: stack => .ok ({ s with stack }.add (.list items.reverse pos))
  | .quote pos :: _ | .vectorQuote pos :: _ => .error ⟨.incompleteQuote, pos⟩
  | [] => .error ⟨.unmatchedCloser, s.pos⟩

/-- Takes in a lexeme that starts at the scanner's place. -/
def take (s : Scanner) : Lexeme → Except SyntaxError Scanner
  | .gap => .ok s
  | .opener bracket =>
    .ok { s.setCount (s.count bracket + 1) bracket with stack := .list [] s.pos :: s.stack }
  | .closer bracket =>
    if s.count bracket = 0 then .error ⟨.unmatchedCloser, s.pos⟩
    else (s.setCount (s.count bracket - 1) bracket).close
  | .quoteMark => .ok { s with stack := .quote s.pos :: s.stack }
  | .atom kind text => .ok (s.add (.atom kind text s.pos))

/-- The tokens, if nothing is open at the end of the text. -/
def finish (s : Scanner) : Except SyntaxError (List Token) :=
  match s.stack with
  | .quote pos :: _ | .vectorQuote pos :: _ => .error ⟨.incompleteQuote, pos⟩
  | _ => if 0 < s.round || 0 < s.square then .error ⟨.unclosedList, s.pos⟩ else .ok s.done.reverse

/-- Scans text of which the first `pending` characters belong to a lexeme already taken. -/
def run : List Char → (pending : Nat) → Scanner → Except SyntaxError (List Token)
  | [], _, s => s.finish
  | c :: cs, pending + 1, s => run cs pending (s.step c)
  | c :: cs, 0, s =>
    match Lexeme.read c cs with
    | .error misfit => .error ⟨misfit.fault, s.pos.after ((c :: cs).take misfit.offset)⟩
    | .ok reading =>
      match s.take reading.lexeme with
      | .error e => .error e
      | .ok next => run cs (reading.size - 1) (next.step c)

end Scanner

/-- The top-level tokens of a text. -/
def Token.scan (text : String) (source : Option String) : Except SyntaxError (List Token) :=
  Scanner.run text.toList 0 (.start source)

end MiniScheme
