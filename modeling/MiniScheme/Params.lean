import MiniScheme.Node.Build

/-! Formal parameters: fixed names, and possibly a name for the list of all further arguments. -/
namespace MiniScheme

structure Params where
  fixed : List String
  rest : Option String
  deriving DecidableEq, Repr

namespace Params

/-- What follows the dot, with the rest name found so far: one symbol, and no second dot. -/
def afterDot (pos : Position) (rest : Option String) : List Node → Except SyntaxError Params
  | [] => if rest.isSome then .ok ⟨[], rest⟩ else .error ⟨.illegalParams, pos⟩
  | .dot second :: _ => .error ⟨.unexpectedDot, second⟩
  | .symbol name _ :: ns =>
    if rest.isNone then afterDot pos (some name) ns else .error ⟨.illegalParams, pos⟩
  | _ => .error ⟨.illegalParams, pos⟩

/-- Fixed names up to a dot, if there is one, and what follows it. -/
def items (pos : Position) : List Node → Except SyntaxError Params
  | [] => .ok ⟨[], none⟩
  | .symbol name _ :: ns => do
    let params ← items pos ns
    return { params with fixed := name :: params.fixed }
  | .dot _ :: ns => afterDot pos none ns
  | _ => .error ⟨.illegalParams, pos⟩

/-- A parameter list. A rest name needs a fixed name before it. -/
def ofItems (nodes : List Node) (pos : Position) : Except SyntaxError Params := do
  let params ← items pos nodes
  if params.fixed.isEmpty && params.rest.isSome then .error ⟨.illegalParams, pos⟩ else .ok params

/-- The parameters of a procedure: a list, or one symbol for all arguments. -/
def ofNode : Node → Except SyntaxError Params
  | .symbol name _ => .ok ⟨[], some name⟩
  | .list nodes pos => ofItems nodes pos
  | .dot pos => .error ⟨.unexpectedDot, pos⟩
  | other => .error ⟨.illegalParams, other.pos⟩

/-- A whole program is no parameter list. -/
def ofProgram (p : Program) : Except SyntaxError Params :=
  .error ⟨.illegalParams, p.pos?.getD .nowhere⟩

/-- The name and parameters that a procedure definition begins with. Behind the name, a dot and
one symbol stand for all arguments. -/
def signature (nodes : List Node) (pos : Position) : Except SyntaxError (String × Params) :=
  match nodes with
  | .symbol name _ :: [.dot _, .symbol rest _] => .ok (name, ⟨[], some rest⟩)
  | .symbol name _ :: formals => do return (name, ← ofItems formals pos)
  | _ => .error ⟨.illegalParams, pos⟩

end Params
end MiniScheme
