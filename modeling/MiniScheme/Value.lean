import MiniScheme.Operator
import MiniScheme.Params
import MiniScheme.Pattern.Basic

/-! Values. Pairs and vectors live in the store and are known by their number; procedures and
transformers carry a number of their own, which is their identity. -/
namespace MiniScheme

structure PairId where
  index : Nat
  deriving DecidableEq, Repr, Inhabited

structure VectorId where
  index : Nat
  deriving DecidableEq, Repr, Inhabited

/-- A fragment to be evaluated later, in the frame it came from. -/
structure Delayed where
  node : Node
  env : FrameId

structure Closure where
  id : Nat
  params : Params
  body : List Node
  env : FrameId

/-- Rules for calls by pattern, and the frame in which their bodies are evaluated. -/
structure Transformer where
  id : Nat
  rules : List Rule
  env : FrameId

inductive Value where
  | unspecified
  | nil
  | boolean (value : Bool)
  | char (value : Char)
  | string (text : String) (label : Nat)
  | symbol (name : String)
  | number (value : Number)
  | pair (cell : PairId)
  | vector (cell : VectorId)
  | closure (procedure : Closure)
  | transformer (rules : Transformer)
  | delayed (fragment : Delayed)
  | primitive (operator : Primitive)
  | form (operator : SpecialForm)

instance : Inhabited Value := ⟨.unspecified⟩

namespace Value

def kind : Value → Kind
  | unspecified => .unspecified
  | nil => .nil
  | boolean _ => .boolean
  | char _ => .char
  | string _ _ => .string
  | symbol _ => .symbol
  | number n => n.kind
  | pair _ => .pair
  | vector _ => .vector
  | closure _ | primitive _ => .procedure
  | transformer _ | form _ => .keyword
  | delayed _ => .delayed

/-- Only the false boolean is not true. -/
def isTrue : Value → Bool
  | boolean false => false
  | _ => true

def isNil : Value → Bool
  | nil => true
  | _ => false

def number? : Value → Option Number
  | number n => some n
  | _ => none

/-- Identity. Numbers, characters, booleans and symbols are the same by value, strings if they
come from one literal, and no delayed fragment is the same as any other. -/
def eqv : Value → Value → Bool
  | unspecified, unspecified => true
  | nil, nil => true
  | boolean a, boolean b => a == b
  | char a, char b => a == b
  | string _ a, string _ b => a == b
  | symbol a, symbol b => a == b
  | number a, number b => a.eqv b
  | pair a, pair b => a == b
  | vector a, vector b => a == b
  | closure a, closure b => a.id == b.id && a.env == b.env
  | transformer a, transformer b => a.id == b.id
  | primitive a, primitive b => a == b
  | form a, form b => a == b
  | _, _ => false

end Value
end MiniScheme
