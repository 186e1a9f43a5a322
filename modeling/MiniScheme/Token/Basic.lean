import MiniScheme.Position

/-! The tree of tokens that a text is made of. -/
namespace MiniScheme

inductive AtomKind where
  | number | string | char | boolean | symbol
  /-- A point that stands alone. -/
  | dot
  /-- The mark in front of a vector. -/
  | sharp
  deriving DecidableEq, Repr

/-- What a quote mark stands before: any datum, or a vector. -/
inductive QuoteKind where
  | list | vector
  deriving DecidableEq, Repr

inductive Token where
  | atom (kind : AtomKind) (text : String) (pos : Position)
  | list (items : List Token) (pos : Position)
  | quote (kind : QuoteKind) (inner : Token) (pos : Position)
  deriving Repr

namespace Token

def isSharp : Token → Bool
  | atom .sharp _ _ => true
  | _ => false

def pos : Token → Position
  | atom _ _ pos => pos
  | list _ pos => pos
  | quote _ _ pos => pos

end Token
end MiniScheme
