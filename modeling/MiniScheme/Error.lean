import MiniScheme.Kind
import MiniScheme.Position

/-! What can go wrong. A syntax error ends a read or an evaluation at one place. A runtime
error remembers where and in which frame it arose, and the applications it has passed through. -/
namespace MiniScheme

/-- The number of an environment frame in the store. -/
structure FrameId where
  index : Nat
  deriving DecidableEq, Repr, Inhabited

inductive SyntaxFault where
  | unmatchedCloser
  | unclosedList
  | illegalCharacter (found : Char)
  | invalidSymbol (name : String)
  | invalidSharp (found : Char)
  | invalidNumber (text : String)
  | incompleteQuote
  | illegalString (text : String)
  | unexpectedDot
  | illegalParams
  deriving DecidableEq, Repr

def SyntaxFault.text : SyntaxFault → String
  | .unmatchedCloser => "Too much ')'"
  | .unclosedList => "Missing ')'"
  | .illegalCharacter found => "Illegal character: " ++ found.toString
  | .invalidSymbol name => "Invalid symbol name: " ++ name
  | .invalidSharp found => "Invalid sharp prefix: " ++ found.toString
  | .invalidNumber text => "Invalid number: " ++ text
  | .incompleteQuote => "Incomplete quote"
  | .illegalString text => "Illegal string literal: " ++ text
  | .unexpectedDot => "Unexpected dot"
  | .illegalParams => "Illegal param list"

structure SyntaxError where
  fault : SyntaxFault
  pos : Position
  deriving DecidableEq, Repr

def SyntaxError.message (e : SyntaxError) : String := e.fault.text ++ ", at " ++ e.pos.text

inductive RuntimeFault where
  | unboundVariable (name : String)
  | applyNonProcedure (shown : String)
  | missingArgs (required actual : Nat)
  | tooManyArgs (required actual : Nat)
  | missingArgsAtLeast (least actual : Nat)
  | invalidForm
  | typeMismatch (kind : Kind) (procedure : String)
  | indexOutOfRange (index : Int) (length : Nat)
  | unimplemented (feature : String)
  | emptyProgram
  deriving DecidableEq, Repr

def RuntimeFault.text : RuntimeFault → String
  | .unboundVariable name => "Unbound variable '" ++ name ++ "'"
  | .applyNonProcedure shown => "Cannot apply non procedure '" ++ shown ++ "'"
  | .missingArgs required actual =>
    "Missing args, required " ++ Nat.repr required ++ ", actual " ++ Nat.repr actual
  | .tooManyArgs required actual =>
    "Too much args, required " ++ Nat.repr required ++ ", actual " ++ Nat.repr actual
  | .missingArgsAtLeast least actual =>
    "Missing args, at least " ++ Nat.repr least ++ ", actual " ++ Nat.repr actual
  | .invalidForm => "Invalid syntax"
  | .typeMismatch kind procedure =>
    "Type '" ++ kind.text ++ "' dismatch for '" ++ procedure ++ "'"
  | .indexOutOfRange index length =>
    "Index " ++ Int.repr index ++ " out of range for length " ++ Nat.repr length
  | .unimplemented feature => "Not implemented: " ++ feature
  | .emptyProgram => "Empty program"

structure RuntimeError where
  fault : RuntimeFault
  /-- Absent for faults found by a built-in operation itself. -/
  pos : Option Position
  /-- The frame in which the error arose, if it is known. -/
  env : Option FrameId
  /-- Applications passed through on the way out, innermost first. -/
  frames : Array (Position × FrameId)
  deriving DecidableEq, Repr

namespace RuntimeError

def ofFault (fault : RuntimeFault) : RuntimeError := ⟨fault, none, none, #[]⟩

def located (fault : RuntimeFault) (pos : Position) (env : FrameId) : RuntimeError :=
  ⟨fault, some pos, some env, #[]⟩

/-- The frame an error has reached: that of its last recorded application, or its origin. -/
def reached (e : RuntimeError) : Option FrameId :=
  match e.frames.back? with
  | some (_, env) => some env
  | none => e.env

/-- Records an application that the error passes through. Consecutive applications in one
frame collapse into the first of them. -/
def passThrough (e : RuntimeError) (pos : Position) (env : FrameId) : RuntimeError :=
  if e.reached = some env then e else { e with frames := e.frames.push (pos, env) }

def message (e : RuntimeError) : String :=
  let place := match e.pos with
    | some pos => pos.lineColumn
    | none => "BUILT-IN"
  e.frames.foldl (fun text frame => text ++ "\n\tat " ++ frame.1.text)
    (e.fault.text ++ ", at " ++ place)

end RuntimeError

/-- Why an evaluation stopped without a value. Running out of fuel is no error of the program. -/
inductive Failure where
  | reading (error : SyntaxError)
  | running (error : RuntimeError)
  | outOfFuel
  deriving DecidableEq, Repr

namespace Failure

/-- Only runtime errors carry a trace. -/
def passThrough (pos : Position) (env : FrameId) : Failure → Failure
  | .running e => .running (e.passThrough pos env)
  | other => other

def message : Failure → String
  | .reading e => e.message
  | .running e => e.message
  | .outOfFuel => "Out of fuel"

end Failure
end MiniScheme
