import MiniScheme.Node.Build

/-! Data as written: what a quoted form denotes before it has a place in the store. -/
namespace MiniScheme

inductive Datum where
  | unspecified
  | nil
  | boolean (value : Bool)
  | char (value : Char)
  | string (text : String) (label : Nat)
  | symbol (name : String)
  | number (value : Number)
  | pair (head tail : Datum)
  | vector (items : List Datum)

instance : Inhabited Datum := ⟨.unspecified⟩

namespace Datum

/-- A list that ends in `last`. -/
def listWithTail (items : List Datum) (last : Datum) : Datum := items.foldr pair last

def list (items : List Datum) : Datum := listWithTail items nil

/-- The form that a nested quote mark stands for. -/
def quotation (d : Datum) : Datum := list [symbol "quote", d]

/-- A dot may only stand between at least one item and exactly one. -/
def dotsInPlace (nodes : List Node) : Bool :=
  match nodes.findIdx? Node.isDot with
  | none => true
  | some i => 0 < i && i + 2 == nodes.length

def firstDot (nodes : List Node) (pos : Position) : Position :=
  ((nodes.find? Node.isDot).map Node.pos).getD pos

def illegalSharp {α : Type} (pos : Position) : Except SyntaxError α :=
  .error ⟨.illegalCharacter '#', pos⟩

mutual

/-- The datum that a node denotes under a quote. -/
def ofNode : Node → Except SyntaxError Datum
  | .symbol name _ => .ok (symbol name)
  | .string text label _ => .ok (string text label)
  | .char c _ => .ok (char c)
  | .boolean b _ => .ok (boolean b)
  | .number n _ => .ok (number n)
  | .quote .list inner _ => do return quotation (← ofNode inner)
  | .quote .vector (.list nodes _) pos => do return quotation (vector (← ofItems nodes pos))
  | .quote .vector _ pos => illegalSharp pos
  | .list nodes pos =>
    if dotsInPlace nodes then ofChain nodes pos
    else .error ⟨.unexpectedDot, firstDot nodes pos⟩
  | .dot pos => .error ⟨.unexpectedDot, pos⟩
  | .sharp pos => illegalSharp pos

/-- The pairs of a list whose dot, if it has one, is in place. A vector mark takes the list
behind it. -/
def ofChain : List Node → Position → Except SyntaxError Datum
  | [], _ => .ok nil
  | [.dot _, last], _ => ofNode last
  | .sharp _ :: .list nodes inner :: rest, pos => do
    let items ← ofItems nodes inner
    return pair (vector items) (← ofChain rest pos)
  | .sharp _ :: _, pos => illegalSharp pos
  | n :: rest, pos => do
    let head ← ofNode n
    return pair head (← ofChain rest pos)

/-- The elements of a vector, among which no dot may stand. -/
def ofItems : List Node → Position → Except SyntaxError (List Datum)
  | [], _ => .ok []
  | .sharp _ :: .list nodes inner :: rest, pos => do
    let items ← ofItems nodes inner
    return vector items :: (← ofItems rest pos)
  | .sharp _ :: _, pos => illegalSharp pos
  | n :: rest, pos => do
    let item ← ofNode n
    return item :: (← ofItems rest pos)

end

/-- The datum of a quote mark before a vector. -/
def ofVectorNode (inner : Node) (pos : Position) : Except SyntaxError Datum :=
  match inner with
  | .list nodes _ => vector <$> ofItems nodes pos
  | _ => illegalSharp pos

/-- A whole program as one list. -/
def ofProgram (p : Program) : Except SyntaxError Datum := ofNode (.list p.forms .nowhere)

end Datum
end MiniScheme
