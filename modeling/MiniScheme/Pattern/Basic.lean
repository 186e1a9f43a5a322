import MiniScheme.Node.Basic

/-! Patterns of transformer rules. The head of a pattern names the transformer and takes no part
in matching; what follows it is a list of pattern items. -/
namespace MiniScheme

inductive PatternItem where
  /-- A variable for one operand. -/
  | atom (name : String)
  /-- A variable for all remaining operands. It stands last. -/
  | vararg (name : String)
  /-- A symbol that has to appear as it is. -/
  | keyword (name : String)
  | list (items : List PatternItem)
  deriving Repr

/-- A pattern and the forms to evaluate when it matches. -/
structure Rule where
  pattern : List PatternItem
  body : List Node

namespace PatternItem

/-- A symbol stands for itself if it is a keyword, and for any operand otherwise. -/
def ofSymbol (keywords : List String) (name : String) : PatternItem :=
  if keywords.contains name then keyword name else atom name

mutual

/-- The nested pattern that a node spells. -/
def ofNode? (keywords : List String) : Node → Option PatternItem
  | .list nodes _ => do return list (← ofNodes? keywords nodes)
  | _ => none

/-- The pattern that nodes spell, given the reserved keywords. A symbol with an ellipsis behind
it takes all that remains, so nothing may follow it. -/
def ofNodes? (keywords : List String) : List Node → Option (List PatternItem)
  | [] => some []
  | .symbol name _ :: ns =>
    if name = Node.ellipsis then none
    else if ns.head?.any Node.isEllipsis then
      if ns.length = 1 then some [vararg name] else none
    else do return ofSymbol keywords name :: (← ofNodes? keywords ns)
  | n :: ns => do
    let item ← ofNode? keywords n
    return item :: (← ofNodes? keywords ns)

end

end PatternItem
end MiniScheme
