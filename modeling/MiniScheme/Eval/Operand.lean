import MiniScheme.Eval.Monad

/-! Operands: what an operator is applied to before anything is evaluated. -/
namespace MiniScheme

inductive Operand where
  /-- Syntax of the call itself. -/
  | node (node : Node)
  /-- A fragment from another call, with the frame it belongs to. -/
  | deferred (fragment : Delayed)
  | value (value : Value)

namespace Operand

/-- The syntax behind an operand, if there is any. -/
def node? : Operand → Option Node
  | node n => some n
  | deferred d => some d.node
  | value _ => none

/-- Evaluates an operand of a call in `env`, without forcing the result. -/
def eval (ev : Evaluator) (env : FrameId) : Operand → Eval Value
  | node n => ev.eval n env
  | deferred d => pure (.delayed d)
  | value v => pure v

def evalForced (ev : Evaluator) (env : FrameId) (op : Operand) : Eval Value := do
  ev.force (← op.eval ev env)

/-- The operand as a value to be evaluated later, in `env` if it has no frame of its own. -/
def delay (env : FrameId) : Operand → Value
  | node n => .delayed ⟨n, env⟩
  | deferred d => .delayed d
  | value v => v

/-- The parts of a list operand. Parts of a fragment keep its frame. -/
def children? : Operand → Option (List Operand)
  | node n => n.items?.map fun items => items.map node
  | deferred d => d.node.items?.map fun items => items.map fun n => deferred ⟨n, d.env⟩
  | value _ => none

/-- An element of a spliced list. -/
def ofElement : Value → Operand
  | .delayed d => deferred d
  | v => value v

/-- Evaluates and forces operands from left to right. -/
def evalAll (ev : Evaluator) (env : FrameId) : List Operand → Eval (List Value)
  | [] => pure []
  | op :: ops => do
    let v ← op.evalForced ev env
    let vs ← evalAll ev env ops
    return v :: vs

/-- The elements of the list bound to a name. A list without end cannot be spliced. -/
def splice (name : String) (pos : Position) (env : FrameId) : Eval (List Operand) := do
  let list ← Eval.lookup name pos env
  let (values, last) ← Eval.readStore fun s => s.walk s.pairs.size list
  match last with
  | .nil => return values.map ofElement
  | .pair _ => throw .outOfFuel
  | other => Eval.traced pos env (Eval.fail (.typeMismatch other.kind "list"))

/-- The operands of a call. A symbol with an ellipsis behind it stands for the elements of the
list it is bound to. -/
def collect (env : FrameId) : List Node → Eval (List Operand)
  | .symbol name pos :: next :: rest =>
    if next.isEllipsis then do
      let spliced ← splice name pos env
      let ops ← collect env rest
      return spliced ++ ops
    else do
      let ops ← collect env (next :: rest)
      return node (.symbol name pos) :: ops
  | n :: rest => do
    let ops ← collect env rest
    return node n :: ops
  | [] => pure []

end Operand
end MiniScheme
