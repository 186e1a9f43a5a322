import MiniScheme.Number.Arith
import MiniScheme.Token.Basic

/-! Syntax trees. A program is the list of its top-level forms. -/
namespace MiniScheme

inductive Node where
  /-- A string literal. Its label tells it apart from other literals of the same text. -/
  | string (text : String) (label : Nat) (pos : Position)
  | char (value : Char) (pos : Position)
  | boolean (value : Bool) (pos : Position)
  | number (value : Number) (pos : Position)
  | quote (kind : QuoteKind) (inner : Node) (pos : Position)
  | symbol (name : String) (pos : Position)
  | list (items : List Node) (pos : Position)
  | dot (pos : Position)
  | sharp (pos : Position)

namespace Node

def pos : Node → Position
  | string _ _ pos => pos
  | char _ pos => pos
  | boolean _ pos => pos
  | number _ pos => pos
  | quote _ _ pos => pos
  | symbol _ pos => pos
  | list _ pos => pos
  | dot pos => pos
  | sharp pos => pos

def name? : Node → Option String
  | symbol name _ => some name
  | _ => none

def items? : Node → Option (List Node)
  | list items _ => some items
  | _ => none

def isDot : Node → Bool
  | dot _ => true
  | _ => false

/-- The symbol that marks repetition in patterns and splicing in calls. -/
def ellipsis : String := "..."

def isEllipsis (n : Node) : Bool := n.name? == some ellipsis

mutual

/-- Equality of trees with their places, where numbers compare by value. -/
def same : Node → Node → Bool
  | string a _ p, string b _ q => a == b && p == q
  | char a p, char b q => a == b && p == q
  | boolean a p, boolean b q => a == b && p == q
  | number a p, number b q => a.same b && p == q
  | quote k a p, quote l b q => k == l && a.same b && p == q
  | symbol a p, symbol b q => a == b && p == q
  | list as p, list bs q => sameAll as bs && p == q
  | dot p, dot q => p == q
  | sharp p, sharp q => p == q
  | _, _ => false

def sameAll : List Node → List Node → Bool
  | [], [] => true
  | a :: as, b :: bs => a.same b && sameAll as bs
  | _, _ => false

end

mutual

/-- Numbers the string literals of a tree in reading order, from `next` on, and gives the first
label left over. -/
def label (next : Nat) : Node → Node × Nat
  | string text _ pos => (string text next pos, next + 1)
  | quote kind inner pos =>
    let (inner, next) := inner.label next
    (quote kind inner pos, next)
  | list items pos =>
    let (items, next) := labelAll next items
    (list items pos, next)
  | other => (other, next)

def labelAll (next : Nat) : List Node → List Node × Nat
  | [] => ([], next)
  | n :: ns =>
    let (n, next) := n.label next
    let (ns, next) := labelAll next ns
    (n :: ns, next)

end

end Node
end MiniScheme
