import MiniScheme.Datum
import MiniScheme.Value

/-! Environment frames, pairs and vectors. Everything is numbered in order of creation and never
removed. -/
namespace MiniScheme

structure Pair where
  head : Value
  tail : Value
  deriving Inhabited

/-- A table of names, inside another frame unless it is outermost. -/
structure Frame where
  parent : Option FrameId
  bindings : List (String × Value)
  deriving Inhabited

namespace Frame

/-- Overwrites the binding of a name, or adds one. -/
def insert (name : String) (value : Value) : List (String × Value) → List (String × Value)
  | [] => [(name, value)]
  | (key, old) :: rest =>
    if key = name then (name, value) :: rest else (key, old) :: insert name value rest

def find? (name : String) (f : Frame) : Option Value := f.bindings.lookup name

def define (name : String) (value : Value) (f : Frame) : Frame :=
  { f with bindings := insert name value f.bindings }

end Frame

structure Store where
  frames : Array Frame
  pairs : Array Pair
  vectors : Array (Array Value)
  /-- The next unused identity of a procedure, transformer or string literal. -/
  fresh : Nat

namespace Store

def empty : Store := ⟨#[], #[], #[], 0⟩

def frame? (s : Store) (f : FrameId) : Option Frame := s.frames[f.index]?

def binding? (s : Store) (f : FrameId) (name : String) : Option Value :=
  s.frame? f >>= Frame.find? name

/-- The frames seen from `f`, innermost first, at most `limit` of them. -/
def chainWithin (s : Store) : Nat → FrameId → List FrameId
  | 0, _ => []
  | limit + 1, f =>
    match s.frame? f with
    | none => []
    | some frame =>
      match frame.parent with
      | none => [f]
      | some parent => f :: s.chainWithin limit parent

/-- The frames seen from `f`. A frame is younger than its parent, so its own number bounds how
many there are. -/
def chain (s : Store) (f : FrameId) : List FrameId := s.chainWithin (f.index + 1) f

/-- The value of a name in the nearest frame that binds it. -/
def lookup (s : Store) (f : FrameId) (name : String) : Option Value :=
  (s.chain f).findSome? fun g => s.binding? g name

/-- Binds a name in the frame `f` itself. -/
def define (s : Store) (f : FrameId) (name : String) (value : Value) : Store :=
  { s with frames := s.frames.modify f.index (Frame.define name value) }

def newFrame (s : Store) (parent : Option FrameId) : FrameId × Store :=
  (⟨s.frames.size⟩, { s with frames := s.frames.push ⟨parent, []⟩ })

def pair? (s : Store) (p : PairId) : Option Pair := s.pairs[p.index]?

def head (s : Store) (p : PairId) : Value := ((s.pair? p).map Pair.head).getD .unspecified

def tail (s : Store) (p : PairId) : Value := ((s.pair? p).map Pair.tail).getD .unspecified

def setHead (s : Store) (p : PairId) (v : Value) : Store :=
  { s with pairs := s.pairs.modify p.index fun pair => { pair with head := v } }

def setTail (s : Store) (p : PairId) (v : Value) : Store :=
  { s with pairs := s.pairs.modify p.index fun pair => { pair with tail := v } }

def cons (s : Store) (head tail : Value) : Value × Store :=
  (.pair ⟨s.pairs.size⟩, { s with pairs := s.pairs.push ⟨head, tail⟩ })

def items (s : Store) (v : VectorId) : Array Value := s.vectors[v.index]?.getD #[]

def newVector (s : Store) (items : Array Value) : Value × Store :=
  (.vector ⟨s.vectors.size⟩, { s with vectors := s.vectors.push items })

def setItem (s : Store) (v : VectorId) (i : Nat) (value : Value) : Store :=
  { s with vectors := s.vectors.modify v.index fun items => items.setIfInBounds i value }

def nextFresh (s : Store) : Nat × Store := (s.fresh, { s with fresh := s.fresh + 1 })

/-- Fresh pairs that list the values and end in `last`. -/
def listWithTail (s : Store) (last : Value) : List Value → Value × Store
  | [] => (last, s)
  | v :: vs =>
    let (tail, s) := s.listWithTail last vs
    s.cons v tail

def list (s : Store) (values : List Value) : Value × Store := s.listWithTail .nil values

mutual

/-- Fresh cells that hold a datum. -/
def build (s : Store) : Datum → Value × Store
  | .unspecified => (.unspecified, s)
  | .nil => (.nil, s)
  | .boolean b => (.boolean b, s)
  | .char c => (.char c, s)
  | .string text label => (.string text label, s)
  | .symbol name => (.symbol name, s)
  | .number n => (.number n, s)
  | .pair head tail =>
    let (head, s) := s.build head
    let (tail, s) := s.build tail
    s.cons head tail
  | .vector items =>
    let (values, s) := s.buildAll items
    s.newVector values.toArray

def buildAll (s : Store) : List Datum → List Value × Store
  | [] => ([], s)
  | d :: ds =>
    let (v, s) := s.build d
    let (vs, s) := s.buildAll ds
    (v :: vs, s)

end

/-- Numbers the string literals of a program apart from all others. -/
def load (s : Store) (p : Program) : Program × Store :=
  let (forms, fresh) := Node.labelAll s.fresh p.forms
  (⟨forms⟩, { s with fresh })

/-- The heads of at most `limit` pairs along a list, and the value behind them. -/
def walk (s : Store) : Nat → Value → List Value × Value
  | limit + 1, .pair p =>
    let (values, last) := s.walk limit (s.tail p)
    (s.head p :: values, last)
  | _, v => ([], v)

/-- The number of cells that a path can pass through. -/
def cellCount (s : Store) : Nat := s.pairs.size + s.vectors.size

end Store
end MiniScheme
