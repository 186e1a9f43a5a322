import MiniScheme.Eval.Global

/-! Running a file, and the prompt loop that reads a program line by line. A text whose lists are
not all closed waits for more lines and is then read again from its start. -/
namespace MiniScheme

/-- What a run writes, and its exit code. -/
structure Transcript where
  out : String
  err : String
  exit : Nat
  deriving DecidableEq, Repr

namespace Transcript

def empty : Transcript := ⟨"", "", 0⟩

def printed (line : String) : Transcript := ⟨line ++ "\n", "", 0⟩

def complained (line : String) (exit : Nat) : Transcript := ⟨"", line ++ "\n", exit⟩

def append (a b : Transcript) : Transcript := ⟨a.out ++ b.out, a.err ++ b.err, max a.exit b.exit⟩

end Transcript

/-- Evaluates a whole text and writes its value, or the error and exit code one. -/
def runFile (ev : Evaluator) (text : String) (name : String) : Transcript :=
  match evaluate ev text (some name) Global.frame .initial with
  | .ok v state => .printed (state.store.text v)
  | .error failure _ => .complained failure.message 1

/-- The prompt loop between two lines. -/
structure Prompt where
  state : State
  /-- Lines that do not yet make a program. -/
  pending : String

namespace Prompt

def start : Prompt := ⟨.initial, ""⟩

/-- Whether more lines can mend a failure. -/
def wantsMore : Failure → Bool
  | .reading e => e.fault == .unclosedList
  | _ => false

/-- What is written for a failure: nothing for a text without forms. -/
def complaint : Failure → Transcript
  | .running e => if e.fault == .emptyProgram then .empty else .complained e.message 0
  | failure => .complained failure.message 0

/-- Takes in a line, with its line feed if it has one. A line feed is added to either. -/
def feed (ev : Evaluator) (name : Option String) (p : Prompt) (line : String) :
    Prompt × Transcript :=
  let text := p.pending ++ line ++ "\n"
  match evaluate ev text name Global.frame p.state with
  | .ok .unspecified state => (⟨state, ""⟩, .empty)
  | .ok v state => (⟨state, ""⟩, .printed (state.store.text v))
  | .error failure state =>
    if wantsMore failure then (⟨state, text⟩, .empty) else (⟨state, ""⟩, complaint failure)

/-- Feeds lines in order. What is pending at the end is dropped. -/
def runLines (ev : Evaluator) (name : Option String) : Prompt → List String → Transcript
  | _, [] => .empty
  | p, line :: lines =>
    let (next, written) := p.feed ev name line
    written.append (runLines ev name next lines)

/-- Splits a text after each line feed, where `line` is the current line so far in reverse. -/
def linesFrom : (line : List Char) → List Char → List String
  | [], [] => []
  | line, [] => [String.ofList line.reverse]
  | line, c :: cs =>
    if c = '\n' then String.ofList (c :: line).reverse :: linesFrom [] cs
    else linesFrom (c :: line) cs

/-- The prompt loop over a whole input. -/
def run (ev : Evaluator) (name : Option String) (input : String) : Transcript :=
  runLines ev name start (linesFrom [] input.toList)

end Prompt
end MiniScheme
