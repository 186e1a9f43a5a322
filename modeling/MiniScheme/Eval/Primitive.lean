import MiniScheme.Eval.Monad
import MiniScheme.Number.Arith

/-! What the built-in procedures do with evaluated arguments. Each checks the number of its
arguments, then their kinds, and only then has an effect. -/
namespace MiniScheme

namespace Arguments

def wrongCount (required actual : Nat) : RuntimeFault :=
  if actual < required then .missingArgs required actual else .tooManyArgs required actual

def exactly (required actual : Nat) : Except RuntimeFault Unit :=
  if actual = required then .ok () else .error (wrongCount required actual)

def atLeast (least actual : Nat) : Except RuntimeFault Unit :=
  if actual < least then .error (.missingArgsAtLeast least actual) else .ok ()

/-- Checks each argument against the guard at its place, and the arguments past the last guard
against that. -/
def checkKinds (procedure : String) : List (Kind → Bool) → List Value → Except RuntimeFault Unit
  | guard :: guards, arg :: args =>
    if guard arg.kind then
      match guards with
      | [] => checkKinds procedure [guard] args
      | _ => checkKinds procedure guards args
    else .error (.typeMismatch arg.kind procedure)
  | _, _ => .ok ()

/-- The arguments as numbers, if the guard admits all of them. -/
def numbers (procedure : String) (guard : Kind → Bool) (args : List Value) :
    Except RuntimeFault (List Number) := do
  checkKinds procedure [guard] args
  return args.filterMap Value.number?

def one {α : Type} (f : Value → Eval α) : List Value → Eval α
  | [a] => f a
  | args => Eval.fail (wrongCount 1 args.length)

def two {α : Type} (f : Value → Value → Eval α) : List Value → Eval α
  | [a, b] => f a b
  | args => Eval.fail (wrongCount 2 args.length)

def three {α : Type} (f : Value → Value → Value → Eval α) : List Value → Eval α
  | [a, b, c] => f a b c
  | args => Eval.fail (wrongCount 3 args.length)

end Arguments

namespace Primitive

open Arguments

abbrev Binary := Number → Number → Except RuntimeFault Number

/-- Folds all arguments into `identity`. -/
def accumulate (procedure : String) (identity : Number) (op : Binary) (args : List Value) :
    Except RuntimeFault Number := do
  let ns ← numbers procedure Kind.isNumber args
  ns.foldlM op identity

/-- Folds the arguments into the first one. A single argument is combined with `identity`. -/
def reduce (procedure : String) (identity : Number) (op : Binary) (args : List Value) :
    Except RuntimeFault Number := do
  atLeast 1 args.length
  let ns ← numbers procedure Kind.isNumber args
  match ns with
  | [] => return identity
  | [n] => op identity n
  | n :: rest => rest.foldlM op n

/-- Whether each number and its successor are ordered as `accept` says. -/
def ordered (accept : Ordering → Bool) : List Number → Bool
  | a :: b :: rest => (a.compare b).any accept && ordered accept (b :: rest)
  | _ => true

def compareChain (procedure : String) (accept : Ordering → Bool) (args : List Value) :
    Except RuntimeFault Bool := do
  atLeast 1 args.length
  let ns ← numbers procedure Kind.isReal args
  return ordered accept ns

def kindTest (accept : Kind → Bool) (args : List Value) : Eval Value :=
  one (fun v => pure (.boolean (accept v.kind))) args

def mismatch {α : Type} (procedure : String) (v : Value) : Eval α :=
  Eval.fail (.typeMismatch v.kind procedure)

def asPair (procedure : String) : Value → Eval PairId
  | .pair p => pure p
  | other => mismatch procedure other

def asVector (procedure : String) : Value → Eval VectorId
  | .vector i => pure i
  | other => mismatch procedure other

/-- An index into a sequence of the given length. -/
def asIndex (procedure : String) (length : Nat) : Value → Eval Nat
  | .number (.integer i) =>
    if 0 ≤ i ∧ i < length then pure i.toNat else Eval.fail (.indexOutOfRange i length)
  | other => mismatch procedure other

def readItem (v index : Value) : Eval Value := do
  let cell ← asVector Primitive.vectorRef.name v
  let items ← Eval.readStore fun s => s.items cell
  let i ← asIndex Primitive.vectorRef.name items.size index
  return items[i]?.getD .unspecified

def writeItem (v index value : Value) : Eval Value := do
  let cell ← asVector Primitive.vectorSet.name v
  let length ← Eval.readStore fun s => (s.items cell).size
  let i ← asIndex Primitive.vectorSet.name length index
  Eval.changeStore fun s => s.setItem cell i value
  return .unspecified

def arithmetic (result : Except RuntimeFault Number) : Eval Value :=
  Value.number <$> Eval.ofFault result

def comparison (accept : Ordering → Bool) (p : Primitive) (args : List Value) : Eval Value :=
  Value.boolean <$> Eval.ofFault (compareChain p.name accept args)

/-- Applies a primitive. Only `force` needs to resolve delayed values. -/
def run (resolve : Value → Eval Value) (p : Primitive) (args : List Value) : Eval Value :=
  match p with
  | .cons => two (fun a b => Eval.onStore fun s => s.cons a b) args
  | .car => one (fun v => do let c ← asPair p.name v; Eval.readStore fun s => s.head c) args
  | .cdr => one (fun v => do let c ← asPair p.name v; Eval.readStore fun s => s.tail c) args
  | .setCar =>
    two (fun v x => do
      let c ← asPair p.name v
      Eval.changeStore fun s => s.setHead c x
      return .unspecified) args
  | .setCdr =>
    two (fun v x => do
      let c ← asPair p.name v
      Eval.changeStore fun s => s.setTail c x
      return .unspecified) args
  | .list => Eval.newList args
  | .add => arithmetic (accumulate p.name (.integer 0) Number.add args)
  | .mul => arithmetic (accumulate p.name (.integer 1) Number.mul args)
  | .sub => arithmetic (reduce p.name (.integer 0) Number.sub args)
  | .div => arithmetic (reduce p.name (.integer 1) Number.div args)
  | .eq => comparison (· == .eq) p args
  | .lt => comparison (· == .lt) p args
  | .gt => comparison (· == .gt) p args
  | .le => comparison (· != .gt) p args
  | .ge => comparison (· != .lt) p args
  | .isNull => kindTest (· == .nil) args
  | .isPair => kindTest Kind.isPair args
  | .isNumber => kindTest Kind.isNumber args
  | .isSymbol => kindTest (· == .symbol) args
  | .isProcedure => kindTest (· == .procedure) args
  | .isVector => kindTest Kind.isVector args
  | .isEq => two (fun a b => pure (.boolean (a.eqv b))) args
  | .not => one (fun v => pure (.boolean !v.isTrue)) args
  | .force => one resolve args
  | .vector => Eval.onStore fun s => s.newVector args.toArray
  | .vectorLength =>
    one (fun v => do
      let c ← asVector p.name v
      Eval.readStore fun s => .number (.integer (s.items c).size)) args
  | .vectorRef => two readItem args
  | .vectorSet => three writeItem args
  | .load => Eval.fail (.unimplemented "load")

end Primitive
end MiniScheme
