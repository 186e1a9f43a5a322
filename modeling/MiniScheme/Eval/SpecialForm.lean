import MiniScheme.Eval.Primitive
import MiniScheme.Pattern.Match

/-! The special forms. Each gets its operands as they stand in the call, the frame of the call
and its place. -/
namespace MiniScheme.SpecialForm

open Arguments

def nodeOf (pos : Position) (env : FrameId) (op : Operand) : Eval Node :=
  match op.node? with
  | some n => pure n
  | none => Eval.failAt .invalidForm pos env

/-- The forms of a procedure body. Of a fragment from elsewhere only the syntax is kept. -/
def bodyOf (pos : Position) (env : FrameId) : List Operand → Eval (List Node)
  | [] => pure []
  | op :: ops => do
    let n ← nodeOf pos env op
    let ns ← bodyOf pos env ops
    return n :: ns

def newClosure (params : Params) (body : List Node) (env : FrameId) : Eval Value := do
  let id ← Eval.onStore Store.nextFresh
  return .closure ⟨id, params, body, env⟩

def runLambda (ops : List Operand) (env : FrameId) (pos : Position) : Eval Value :=
  match ops with
  | formals :: form :: forms => do
    let spec ← nodeOf pos env formals
    let params ← Eval.ofSyntax (Params.ofNode spec)
    let body ← bodyOf pos env (form :: forms)
    newClosure params body env
  | _ => Eval.fail (.missingArgsAtLeast 2 ops.length)

/-- Binds a name to an unforced value, or to a procedure given by signature and body. -/
def runDefine (ev : Evaluator) (ops : List Operand) (env : FrameId) (pos : Position) :
    Eval Value :=
  match ops with
  | target :: op :: more => do
    match ← nodeOf pos env target with
    | .symbol name _ =>
      Eval.ofFault (exactly 2 ops.length)
      let value ← op.eval ev env
      Eval.define env name value
    | .list nodes place =>
      let (name, params) ← Eval.ofSyntax (Params.signature nodes place)
      let body ← bodyOf pos env (op :: more)
      let procedure ← newClosure params body env
      Eval.define env name procedure
    | other => Eval.ofSyntax (.error ⟨.illegalParams, other.pos⟩)
    return .unspecified
  | _ => Eval.fail (.missingArgsAtLeast 2 ops.length)

def runDefineSyntax (ev : Evaluator) (ops : List Operand) (env : FrameId) (pos : Position) :
    Eval Value :=
  match ops with
  | [target, op] => do
    match (← nodeOf pos env target).name? with
    | none => throw (.running ⟨.invalidForm, some pos, none, #[]⟩)
    | some name =>
      match ← op.evalForced ev env with
      | .transformer t =>
        Eval.define env name (.transformer t)
        return .unspecified
      | other => Eval.fail (.typeMismatch other.kind SpecialForm.defineSyntax.name)
  | _ => Eval.fail (wrongCount 2 ops.length)

/-- The rule that a node spells: a pattern, and at least one form. -/
def ruleOf? (keywords : List String) (n : Node) : Option Rule :=
  match n.items? with
  | some (pattern :: form :: forms) => do
    let items ← pattern.items?
    return ⟨← PatternItem.ofNodes? keywords (items.drop 1), form :: forms⟩
  | _ => none

def rulesOf (keywords : List String) (pos : Position) (env : FrameId) :
    List Operand → Eval (List Rule)
  | [] => pure []
  | op :: ops => do
    let n ← nodeOf pos env op
    match ruleOf? keywords n with
    | none => Eval.failAt .invalidForm n.pos env
    | some rule =>
      let rules ← rulesOf keywords pos env ops
      return rule :: rules

def runSyntaxRules (ops : List Operand) (env : FrameId) (pos : Position) : Eval Value :=
  match ops with
  | [] => Eval.failAt .invalidForm pos env
  | reserved :: rest =>
    match (reserved.node?.bind Node.items?).bind fun items => items.mapM Node.name? with
    | none => Eval.failAt .invalidForm pos env
    | some keywords => do
      let rules ← rulesOf keywords pos env rest
      let id ← Eval.onStore Store.nextFresh
      return .transformer ⟨id, rules, env⟩

def runQuotation (ops : List Operand) : Eval Value :=
  match ops with
  | [.value v] => pure v
  | [.node n] => Eval.quote (Datum.ofNode n)
  | [.deferred d] => Eval.quote (Datum.ofNode d.node)
  | _ => Eval.fail (wrongCount 1 ops.length)

def runConditional (ev : Evaluator) (ops : List Operand) (env : FrameId) : Eval Value :=
  match ops with
  | [test, yes] => do
    if (← test.evalForced ev env).isTrue then yes.eval ev env else pure .unspecified
  | [test, yes, no] => do
    if (← test.evalForced ev env).isTrue then yes.eval ev env else no.eval ev env
  | _ =>
    Eval.fail (if ops.length < 2 then .missingArgsAtLeast 2 ops.length else .tooManyArgs 3 ops.length)

/-- Evaluates and forces each operand and gives the last value. -/
def runSequence (ev : Evaluator) (env : FrameId) : List Operand → Eval Value
  | [] => pure .unspecified
  | [op] => op.evalForced ev env
  | op :: ops => do
    let _ ← op.evalForced ev env
    runSequence ev env ops

/-- The name and initialiser of a local binding. -/
def bindingOf? (op : Operand) : Option (String × Operand) :=
  match op.children? with
  | some [name, init] => do return (← name.node?.bind Node.name?, init)
  | _ => none

/-- Initialisers are evaluated outside, in `env`, and bound in `inner`. -/
def bindLocals (ev : Evaluator) (env inner : FrameId) (pos : Position) :
    List Operand → Eval Unit
  | [] => pure ()
  | op :: ops =>
    match bindingOf? op with
    | none => Eval.failAt .invalidForm pos env
    | some (name, init) => do
      let value ← init.evalForced ev env
      Eval.define inner name value
      bindLocals ev env inner pos ops

/-- Evaluates operands in order, unforced, and gives the last value. -/
def runForms (ev : Evaluator) (env : FrameId) : List Operand → Eval Value
  | [] => pure .unspecified
  | [op] => op.eval ev env
  | op :: ops => do
    let _ ← op.eval ev env
    runForms ev env ops

def runLocalBinding (ev : Evaluator) (ops : List Operand) (env : FrameId) (pos : Position) :
    Eval Value :=
  match ops with
  | bindings :: form :: forms => do
    let inner ← Eval.newChild env
    match bindings.children? with
    | none => Eval.failAt .invalidForm pos env
    | some locals =>
      bindLocals ev env inner pos locals
      runForms ev inner (form :: forms)
  | _ => Eval.fail (.missingArgsAtLeast 2 ops.length)

def runDelay (ops : List Operand) (env : FrameId) : Eval Value :=
  match ops with
  | [op] => pure (op.delay env)
  | _ => Eval.fail (wrongCount 1 ops.length)

def run (ev : Evaluator) (form : SpecialForm) (ops : List Operand) (env : FrameId)
    (pos : Position) : Eval Value :=
  match form with
  | lambda => runLambda ops env pos
  | define => runDefine ev ops env pos
  | defineSyntax => runDefineSyntax ev ops env pos
  | syntaxRules => runSyntaxRules ops env pos
  | quotation => runQuotation ops
  | conditional => runConditional ev ops env
  | sequence => runSequence ev env ops
  | localBinding => runLocalBinding ev ops env pos
  | delay => runDelay ops env

end MiniScheme.SpecialForm
