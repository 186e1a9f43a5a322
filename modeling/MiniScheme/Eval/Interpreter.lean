import MiniScheme.Eval.SpecialForm

/-! The evaluator. `evalStep` and `forceStep` say what one form or one delayed value comes to, in
terms of an evaluator for what lies inside; `eval` and `force` are the evaluators of bounded
depth that they generate. -/
namespace MiniScheme

namespace Closure

/-- Binds names to arguments in turn, so that the last of equal names counts. -/
def bindFixed (env : FrameId) : List String → List Value → Eval Unit
  | name :: names, arg :: args => do
    Eval.define env name arg
    bindFixed env names args
  | _, _ => pure ()

/-- Binds parameters in a fresh frame, or fails if the number of arguments does not fit. -/
def bindParams (params : Params) (args : List Value) (env : FrameId) (pos : Position) :
    Eval Unit :=
  match params.rest with
  | none =>
    if args.length = params.fixed.length then bindFixed env params.fixed args
    else Eval.failAt (Arguments.wrongCount params.fixed.length args.length) pos env
  | some rest =>
    if args.length < params.fixed.length then
      Eval.failAt (.missingArgsAtLeast params.fixed.length args.length) pos env
    else do
      bindFixed env params.fixed args
      let list ← Eval.newList (args.drop params.fixed.length)
      Eval.define env rest list

/-- Evaluates the body in a new child of the captured frame. -/
def call (ev : Evaluator) (c : Closure) (args : List Value) (pos : Position) : Eval Value := do
  let env ← Eval.newChild c.env
  Eval.note ⟨.closure, pos, args.length⟩
  bindParams c.params args env pos
  ev.body env c.body

end Closure

namespace Evaluator

/-- What an operator does with its operands. -/
def operate (ev : Evaluator) (op : Value) (ops : List Operand) (env : FrameId) (pos : Position) :
    Eval Value :=
  match op with
  | .form f => f.run ev ops env pos
  | .primitive p => do p.run ev.force (← Operand.evalAll ev env ops)
  | .closure c => do c.call ev (← Operand.evalAll ev env ops) pos
  | .transformer t => do
    Eval.note ⟨.transformer, pos, ops.length⟩
    t.expand ev ops env pos
  | other => do
    let shown ← Eval.readStore fun s => s.text other
    Eval.failAt (.applyNonProcedure shown) pos env

/-- Applies an operator in a call at `pos`, which errors record on their way out. -/
def apply (ev : Evaluator) (op : Value) (ops : List Operand) (env : FrameId) (pos : Position) :
    Eval Value :=
  Eval.traced pos env (ev.operate op ops env pos)

/-- The operator is evaluated and forced before the operands are collected. -/
def evalStep (ev : Evaluator) (n : Node) (env : FrameId) : Eval Value :=
  match n with
  | .string text label _ => pure (.string text label)
  | .char c _ => pure (.char c)
  | .boolean b _ => pure (.boolean b)
  | .number n _ => pure (.number n)
  | .quote .list inner _ => Eval.quote (Datum.ofNode inner)
  | .quote .vector inner pos => Eval.quote (Datum.ofVectorNode inner pos)
  | .symbol name pos => Eval.lookup name pos env
  | .list [] _ => pure .nil
  | .list (operator :: args) pos => do
    let op ← ev.force (← ev.eval operator env)
    let ops ← Operand.collect env args
    ev.apply op ops env pos
  | .dot pos => throw (.reading ⟨.unexpectedDot, pos⟩)
  | .sharp pos => throw (.reading ⟨.illegalCharacter '#', pos⟩)

/-- Resolves a delayed value until a plain one remains. -/
def forceStep (ev : Evaluator) (v : Value) : Eval Value :=
  match v with
  | .delayed d => do ev.force (← ev.eval d.node d.env)
  | other => pure other

/-- The evaluator that gives up at any form. -/
def exhausted : Evaluator := ⟨fun _ _ => throw .outOfFuel, fun _ => throw .outOfFuel⟩

/-- The evaluator for forms and delayed values nested at most `fuel` deep. -/
def ofFuel : Nat → Evaluator
  | 0 => exhausted
  | fuel + 1 =>
    ⟨fun n env => (ofFuel fuel).evalStep n env, fun v => (ofFuel fuel).forceStep v⟩

end Evaluator

/-- A depth that no program reaches before other resources run out. -/
def ampleFuel : Nat := 1000000

namespace Program

/-- Evaluates the forms of a program in order. The value of the last is not forced. -/
def run (ev : Evaluator) (p : Program) (env : FrameId) : Eval Value :=
  if p.forms.isEmpty then Eval.fail .emptyProgram else ev.body env p.forms

/-- Takes a program in, so that its string literals are told apart from all others. -/
def load (p : Program) : Eval Program := Eval.onStore fun s => s.load p

/-- Reads a text and takes it in. -/
def read (text : String) (source : Option String) : Eval Program := do
  let p ← Eval.ofSyntax (parse text source)
  p.load

end Program

/-- Reads a whole text, evaluates it in `env` and forces the value of its last form. -/
def evaluate (ev : Evaluator) (text : String) (source : Option String) (env : FrameId) :
    Eval Value := do
  let p ← Program.read text source
  let v ← p.run ev env
  ev.force v

end MiniScheme
