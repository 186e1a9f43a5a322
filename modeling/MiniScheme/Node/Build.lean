import MiniScheme.Node.Basic
import MiniScheme.Token.Scanner

/-! From tokens to syntax trees, one node for each token. -/
namespace MiniScheme

namespace Node

def ofAtom (kind : AtomKind) (text : String) (pos : Position) : Except SyntaxError Node :=
  match kind with
  | .symbol => .ok (symbol text pos)
  | .dot => .ok (dot pos)
  | .sharp => .ok (sharp pos)
  | .string => .ok (string text 0 pos)
  | .boolean => .ok (boolean (text == "#t") pos)
  | .char =>
    match text.toList with
    | c :: _ => .ok (char c pos)
    | [] => .error ⟨.invalidSymbol text, pos⟩
  | .number =>
    match Number.parse? text with
    | some n => .ok (number n pos)
    | none => .error ⟨.invalidNumber text, pos⟩

mutual

def ofToken : Token → Except SyntaxError Node
  | .atom kind text pos => ofAtom kind text pos
  | .list items pos => do return list (← ofTokens items) pos
  | .quote kind inner pos => do return quote kind (← ofToken inner) pos

def ofTokens : List Token → Except SyntaxError (List Node)
  | [] => .ok []
  | t :: ts => do
    let n ← ofToken t
    let ns ← ofTokens ts
    return n :: ns

end

end Node

/-- A whole text, as the forms it holds. -/
structure Program where
  forms : List Node

namespace Program

def parse (text : String) (source : Option String) : Except SyntaxError Program := do
  let tokens ← Token.scan text source
  let forms ← Node.ofTokens tokens
  return ⟨forms⟩

/-- A program stands where its first form does. -/
def pos? (p : Program) : Option Position := p.forms.head?.map Node.pos

def same (a b : Program) : Bool := Node.sameAll a.forms b.forms

end Program
end MiniScheme
