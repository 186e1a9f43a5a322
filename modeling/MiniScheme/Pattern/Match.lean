import MiniScheme.Eval.Operand

/-! Matching operands against patterns, and what the variables of a pattern stand for. -/
namespace MiniScheme

/-- What a pattern variable stands for. -/
inductive Capture where
  | one (operand : Operand)
  | many (operands : List Operand)

namespace PatternItem

def isVararg : PatternItem → Bool
  | vararg _ => true
  | _ => false

/-- The number of operands a pattern cannot do without. -/
def required (pattern : List PatternItem) : Nat := pattern.countP fun item => !item.isVararg

/-- Whether an operand is the given symbol. -/
def isKeyword (name : String) : Operand → Bool
  | .value (.symbol found) => found == name
  | op => (op.node?.bind Node.name?) == some name

mutual

def admits : PatternItem → Operand → Bool
  | atom _, _ => true
  | vararg _, _ => true
  | keyword name, op => isKeyword name op
  | list sub, op =>
    match op.children? with
    | none => false
    | some ops => required sub ≤ ops.length && admitsAll sub ops

/-- Whether items and operands agree as far as both go. -/
def admitsAll : List PatternItem → List Operand → Bool
  | item :: items, op :: ops => item.admits op && admitsAll items ops
  | _, _ => true

end

/-- A pattern matches if there are enough operands and each item admits its own. Further
operands are ignored. -/
def matchesAll (pattern : List PatternItem) (ops : List Operand) : Bool :=
  required pattern ≤ ops.length && admitsAll pattern ops

mutual

/-- What the variables of one item stand for, given the operands from its own place on. There is
no answer if its operand is missing. -/
def capture? : PatternItem → List Operand → Option (List (String × Capture))
  | vararg name, ops => some [(name, .many ops)]
  | atom name, op :: _ => some [(name, .one op)]
  | keyword _, _ :: _ => some []
  | list sub, op :: _ => do captures? sub (← op.children?)
  | _, [] => none

/-- What the variables of a pattern stand for, in the order they are bound. -/
def captures? : List PatternItem → List Operand → Option (List (String × Capture))
  | [], _ => some []
  | item :: items, ops => do
    let first ← item.capture? ops
    return first ++ (← captures? items (ops.drop 1))

end

end PatternItem

namespace Capture

/-- The value of a pattern variable, for operands of a call in `caller`. -/
def toValue (caller : FrameId) : Capture → Eval Value
  | one op => pure (op.delay caller)
  | many ops => Eval.newList (ops.map (Operand.delay caller))

/-- Binds pattern variables in the frame `target`, one after the other. -/
def bindAll (caller target : FrameId) : List (String × Capture) → Eval Unit
  | [] => pure ()
  | (name, capture) :: rest => do
    let value ← capture.toValue caller
    Eval.define target name value
    bindAll caller target rest

end Capture

namespace Transformer

/-- Binds the variables of the first rule that matches in the transformer's own frame, and
evaluates the rule's body there. -/
def expand (ev : Evaluator) (t : Transformer) (ops : List Operand) (caller : FrameId)
    (pos : Position) : Eval Value :=
  match t.rules.find? fun rule => PatternItem.matchesAll rule.pattern ops with
  | none => Eval.failAt .invalidForm pos t.env
  | some rule =>
    match PatternItem.captures? rule.pattern ops with
    | none => Eval.failAt .invalidForm pos t.env
    | some captures => do
      Capture.bindAll caller t.env captures
      ev.body t.env rule.body

end Transformer
end MiniScheme
