import MiniScheme.Eval.Interpreter

/-! What evaluation is made of. A congruence is a relation between computations that holds of the
basic ones with themselves and passes through sequencing and tracing. Two evaluators that are
related by it make related steps, so a property of whole evaluations is checked on the basic
computations alone. Most of a step neither tells the tracers nor records an application, and there
any relation will do that passes through sequencing. -/
namespace MiniScheme

/-- The faults that a form can still have once it has been read. -/
def SyntaxFault.isLate : SyntaxFault → Bool
  | unexpectedDot | illegalCharacter _ | illegalParams => true
  | _ => false

namespace Eval

/-- A relation that the computations on the store have to themselves, and that passes through
sequencing. -/
structure Compatible (R : (α : Type) → Eval α → Eval α → Prop) : Prop where
  pure {α : Type} (a : α) : R α (Pure.pure a) (Pure.pure a)
  bind {α β : Type} {x y : Eval α} {f g : α → Eval β} :
    R α x y → (∀ a, R β (f a) (g a)) → R β (x >>= f) (y >>= g)
  onStore {α : Type} (f : Store → α × Store) : R α (Eval.onStore f) (Eval.onStore f)
  changeStore (f : Store → Store) : R Unit (Eval.changeStore f) (Eval.changeStore f)
  readStore {α : Type} (f : Store → α) : R α (Eval.readStore f) (Eval.readStore f)
  /-- Errors are raised without a trace. -/
  running {α : Type} (e : RuntimeError) : e.frames = #[] →
    R α (throw (.running e)) (throw (.running e))
  late {α : Type} (e : SyntaxError) : e.fault.isLate = true →
    R α (throw (.reading e)) (throw (.reading e))
  outOfFuel {α : Type} : R α (throw .outOfFuel) (throw .outOfFuel)

/-- A relation that telling the tracers has to itself as well, and that passes through tracing. -/
structure Congruence (R : (α : Type) → Eval α → Eval α → Prop) : Prop extends Compatible R where
  note (call : CallRecord) : R Unit (Eval.note call) (Eval.note call)
  traced {α : Type} {x y : Eval α} (pos : Position) (env : FrameId) :
    R α x y → R α (Eval.traced pos env x) (Eval.traced pos env y)

end Eval

/-- Two evaluators whose evaluations are related. -/
structure Evaluator.Related (R : (α : Type) → Eval α → Eval α → Prop) (ev other : Evaluator) :
    Prop where
  eval (n : Node) (env : FrameId) : R Value (ev.eval n env) (other.eval n env)
  force (v : Value) : R Value (ev.force v) (other.force v)

/-- A reading whose error, if it has one, can arise after the text was read. -/
def Late {α : Type} (result : Except SyntaxError α) : Prop :=
  ∀ e, result = .error e → e.fault.isLate = true

namespace Late

variable {α β : Type}

theorem ok (a : α) : Late (.ok a : Except SyntaxError α) := by
  intro e failed
  contradiction

theorem error {e : SyntaxError} (late : e.fault.isLate = true) :
    Late (.error e : Except SyntaxError α) := by
  intro other failed
  cases failed
  exact late

theorem bind {x : Except SyntaxError α} {f : α → Except SyntaxError β} (first : Late x)
    (next : ∀ a, Late (f a)) : Late (x >>= f) := by
  intro e failed
  cases x with
  | error found => cases failed; exact first e rfl
  | ok a => exact next a e failed

end Late

namespace Datum

mutual

/-- A node that is no datum has a dot or a vector mark out of place. -/
theorem ofNode_late : (n : Node) → Late (ofNode n)
  | .symbol _ _ | .string _ _ _ | .char _ _ | .boolean _ _ | .number _ _ => .ok _
  | .quote .list inner _ => .bind (ofNode_late inner) fun _ => .ok _
  | .quote .vector (.list nodes _) pos => .bind (ofItems_late nodes pos) fun _ => .ok _
  | .quote .vector (.symbol ..) _ | .quote .vector (.string ..) _ | .quote .vector (.char ..) _
  | .quote .vector (.boolean ..) _ | .quote .vector (.number ..) _ | .quote .vector (.quote ..) _
  | .quote .vector (.dot _) _ | .quote .vector (.sharp _) _ => .error rfl
  | .list nodes pos => by
    rw [ofNode]
    split
    · exact ofChain_late nodes pos
    · exact .error rfl
  | .dot _ | .sharp _ => .error rfl

theorem ofChain_late (nodes : List Node) (pos : Position) : Late (ofChain nodes pos) := by
  rw [ofChain.eq_def]
  split
  · exact .ok _
  · exact ofNode_late _
  · exact .bind (ofItems_late _ _) fun _ => .bind (ofChain_late _ _) fun _ => .ok _
  · exact .error rfl
  · exact .bind (ofNode_late _) fun _ => .bind (ofChain_late _ _) fun _ => .ok _

theorem ofItems_late (nodes : List Node) (pos : Position) : Late (ofItems nodes pos) := by
  rw [ofItems.eq_def]
  split
  · exact .ok _
  · exact .bind (ofItems_late _ _) fun _ => .bind (ofItems_late _ _) fun _ => .ok _
  · exact .error rfl
  · exact .bind (ofNode_late _) fun _ => .bind (ofItems_late _ _) fun _ => .ok _

end

theorem ofVectorNode_late (inner : Node) (pos : Position) : Late (ofVectorNode inner pos) := by
  unfold ofVectorNode
  split
  · exact .bind (ofItems_late _ pos) fun _ => .ok _
  · exact .error rfl

end Datum

namespace Params

theorem afterDot_late (pos : Position) (rest : Option String) (nodes : List Node) :
    Late (afterDot pos rest nodes) := by
  fun_induction afterDot pos rest nodes with
  | case1 => exact .ok _
  | case4 _ _ _ _ _ ih => exact ih
  | case2 | case3 | case5 | case6 => exact .error rfl

theorem items_late (pos : Position) (nodes : List Node) : Late (items pos nodes) := by
  fun_induction items pos nodes with
  | case1 => exact .ok _
  | case2 _ _ _ ih => exact .bind ih fun _ => .ok _
  | case3 _ ns => exact afterDot_late pos none ns
  | case4 => exact .error rfl

theorem ofItems_late (nodes : List Node) (pos : Position) : Late (ofItems nodes pos) := by
  refine .bind (items_late pos nodes) fun params => ?_
  split
  · exact .error rfl
  · exact .ok _

theorem ofNode_late (n : Node) : Late (ofNode n) := by
  rw [ofNode.eq_def]
  split
  · exact .ok _
  · exact ofItems_late _ _
  · exact .error rfl
  · exact .error rfl

theorem signature_late (nodes : List Node) (pos : Position) : Late (signature nodes pos) := by
  unfold signature
  split
  · exact .ok _
  · exact .bind (ofItems_late _ _) fun _ => .ok _
  · exact .error rfl

end Params

namespace Eval.Compatible

variable {R : (α : Type) → Eval α → Eval α → Prop} {ev other : Evaluator} {α : Type}

theorem fail (h : Compatible R) (fault : RuntimeFault) :
    R α (Eval.fail fault) (Eval.fail fault) := h.running _ rfl

theorem failAt (h : Compatible R) (fault : RuntimeFault) (pos : Position) (env : FrameId) :
    R α (Eval.failAt fault pos env) (Eval.failAt fault pos env) := h.running _ rfl

theorem ofSyntax (h : Compatible R) {result : Except SyntaxError α} (late : Late result) :
    R α (Eval.ofSyntax result) (Eval.ofSyntax result) := by
  cases result with
  | ok a => exact h.pure a
  | error e => exact h.late e (late e rfl)

theorem ofFault (h : Compatible R) (result : Except RuntimeFault α) :
    R α (Eval.ofFault result) (Eval.ofFault result) := by
  cases result with
  | ok a => exact h.pure a
  | error fault => exact h.fail fault

theorem define (h : Compatible R) (env : FrameId) (name : String) (value : Value) :
    R Unit (Eval.define env name value) (Eval.define env name value) := h.changeStore _

theorem newList (h : Compatible R) (values : List Value) :
    R Value (Eval.newList values) (Eval.newList values) := h.onStore _

theorem quote (h : Compatible R) {datum : Except SyntaxError Datum} (late : Late datum) :
    R Value (Eval.quote datum) (Eval.quote datum) :=
  h.bind (h.ofSyntax late) fun _ => h.onStore _

theorem lookup (h : Compatible R) (name : String) (pos : Position) (env : FrameId) :
    R Value (Eval.lookup name pos env) (Eval.lookup name pos env) := by
  refine h.bind (h.readStore _) fun found => ?_
  cases found with
  | some v => exact h.pure v
  | none => exact h.failAt _ pos env

theorem body (h : Compatible R) (related : Evaluator.Related R ev other) (env : FrameId)
    (forms : List Node) : R Value (ev.body env forms) (other.body env forms) := by
  fun_induction Evaluator.body ev env forms with
  | case1 => exact h.pure _
  | case2 n => exact related.eval n env
  | case3 n ns _ ih =>
    cases ns with
    | nil => contradiction
    | cons m ns => exact h.bind (related.eval n env) fun _ => ih

/-! Operands. -/

theorem operand (h : Compatible R) (related : Evaluator.Related R ev other) (env : FrameId)
    (op : Operand) : R Value (op.eval ev env) (op.eval other env) := by
  cases op with
  | node n => exact related.eval n env
  | deferred d => exact h.pure _
  | value v => exact h.pure v

theorem forced (h : Compatible R) (related : Evaluator.Related R ev other) (env : FrameId)
    (op : Operand) : R Value (op.evalForced ev env) (op.evalForced other env) :=
  h.bind (h.operand related env op) related.force

theorem operands (h : Compatible R) (related : Evaluator.Related R ev other) (env : FrameId)
    (ops : List Operand) :
    R (List Value) (Operand.evalAll ev env ops) (Operand.evalAll other env ops) := by
  induction ops with
  | nil => exact h.pure _
  | cons op ops ih => exact h.bind (h.forced related env op) fun _ => h.bind ih fun _ => h.pure _

/-- Splicing traces an error of its own. -/
theorem splice (h : Compatible R) (traced : ∀ (x y : Eval (List Operand)) (pos : Position)
      (env : FrameId), R _ x y → R _ (Eval.traced pos env x) (Eval.traced pos env y))
    (name : String) (pos : Position) (env : FrameId) :
    R (List Operand) (Operand.splice name pos env) (Operand.splice name pos env) := by
  refine h.bind (h.lookup name pos env) fun list => h.bind (h.readStore _) fun ⟨values,last⟩ => ?_
  dsimp only
  split
  · exact h.pure _
  · exact h.outOfFuel
  · exact traced _ _ pos env (h.fail _)

theorem collect (h : Compatible R) (splice : ∀ name pos env,
      R (List Operand) (Operand.splice name pos env) (Operand.splice name pos env))
    (env : FrameId) (nodes : List Node) :
    R (List Operand) (Operand.collect env nodes) (Operand.collect env nodes) := by
  fun_induction Operand.collect env nodes with
  | case1 name pos next rest splices ih =>
    exact h.bind (splice name pos env) fun _ => h.bind ih fun _ => h.pure _
  | case2 name pos next rest plain ih => exact h.bind ih fun _ => h.pure _
  | case3 n rest _ ih => exact h.bind ih fun _ => h.pure _
  | case4 => exact h.pure _

/-! Primitives. -/

theorem one (h : Compatible R) {f g : Value → Eval α} (args : List Value)
    (related : ∀ v, R α (f v) (g v)) : R α (Arguments.one f args) (Arguments.one g args) := by
  unfold Arguments.one
  split
  · exact related _
  · exact h.fail _

theorem two (h : Compatible R) {f g : Value → Value → Eval α} (args : List Value)
    (related : ∀ v w, R α (f v w) (g v w)) : R α (Arguments.two f args) (Arguments.two g args) := by
  unfold Arguments.two
  split
  · exact related _ _
  · exact h.fail _

theorem three (h : Compatible R) {f g : Value → Value → Value → Eval α} (args : List Value)
    (related : ∀ u v w, R α (f u v w) (g u v w)) :
    R α (Arguments.three f args) (Arguments.three g args) := by
  unfold Arguments.three
  split
  · exact related _ _ _
  · exact h.fail _

theorem asPair (h : Compatible R) (procedure : String) (v : Value) :
    R PairId (Primitive.asPair procedure v) (Primitive.asPair procedure v) := by
  unfold Primitive.asPair
  split
  · exact h.pure _
  · exact h.fail _

theorem asVector (h : Compatible R) (procedure : String) (v : Value) :
    R VectorId (Primitive.asVector procedure v) (Primitive.asVector procedure v) := by
  unfold Primitive.asVector
  split
  · exact h.pure _
  · exact h.fail _

theorem asIndex (h : Compatible R) (procedure : String) (length : Nat) (v : Value) :
    R Nat (Primitive.asIndex procedure length v) (Primitive.asIndex procedure length v) := by
  unfold Primitive.asIndex
  split
  · split
    · exact h.pure _
    · exact h.fail _
  · exact h.fail _

theorem primitive (h : Compatible R) {resolve other : Value → Eval Value}
    (related : ∀ v, R Value (resolve v) (other v)) (p : Primitive) (args : List Value) :
    R Value (p.run resolve args) (p.run other args) := by
  cases p with
  | cons => exact h.two args fun _ _ => h.onStore _
  | car | cdr => exact h.one args fun v => h.bind (h.asPair _ v) fun _ => h.readStore _
  | setCar | setCdr =>
    exact h.two args fun v _ =>
      h.bind (h.asPair _ v) fun _ => h.bind (h.changeStore _) fun _ => h.pure _
  | list => exact h.newList args
  | add | mul | sub | div | eq | lt | gt | le | ge =>
    exact h.bind (h.ofFault _) fun _ => h.pure _
  | isNull | isPair | isNumber | isSymbol | isProcedure | isVector | not =>
    exact h.one args fun _ => h.pure _
  | isEq => exact h.two args fun _ _ => h.pure _
  | force => exact h.one args related
  | vector => exact h.onStore fun s => s.newVector args.toArray
  | vectorLength => exact h.one args fun v => h.bind (h.asVector _ v) fun _ => h.readStore _
  | vectorRef =>
    exact h.two args fun v index => h.bind (h.asVector _ v) fun _ => h.bind (h.readStore _) fun _ =>
      h.bind (h.asIndex _ _ index) fun _ => h.pure _
  | vectorSet =>
    exact h.three args fun v index _ => h.bind (h.asVector _ v) fun _ =>
      h.bind (h.readStore _) fun _ => h.bind (h.asIndex _ _ index) fun _ =>
        h.bind (h.changeStore _) fun _ => h.pure _
  | load => exact h.fail _

/-! Closures and transformers. -/

theorem bindFixed (h : Compatible R) (env : FrameId) (names : List String) (args : List Value) :
    R Unit (Closure.bindFixed env names args) (Closure.bindFixed env names args) := by
  fun_induction Closure.bindFixed env names args with
  | case1 name names arg args ih => exact h.bind (h.define env name arg) fun _ => ih
  | case2 => exact h.pure _

theorem bindParams (h : Compatible R) (params : Params) (args : List Value) (env : FrameId)
    (pos : Position) : R Unit (Closure.bindParams params args env pos)
      (Closure.bindParams params args env pos) := by
  unfold Closure.bindParams
  split
  · split
    · exact h.bindFixed env _ args
    · exact h.failAt _ pos env
  · split
    · exact h.failAt _ pos env
    · exact h.bind (h.bindFixed env _ args) fun _ => h.bind (h.newList _) fun _ => h.define env _ _

theorem bindAll (h : Compatible R) (caller target : FrameId) (captures : List (String × Capture)) :
    R Unit (Capture.bindAll caller target captures) (Capture.bindAll caller target captures) := by
  induction captures with
  | nil => exact h.pure _
  | cons capture captures ih =>
    obtain ⟨name,capture⟩ := capture
    refine h.bind ?_ fun value => h.bind (h.define target name value) fun _ => ih
    cases capture with
    | one op => exact h.pure _
    | many ops => exact h.newList _

theorem expand (h : Compatible R) (related : Evaluator.Related R ev other) (t : Transformer)
    (ops : List Operand) (caller : FrameId) (pos : Position) :
    R Value (t.expand ev ops caller pos) (t.expand other ops caller pos) := by
  unfold Transformer.expand
  split
  · exact h.failAt _ pos _
  · split
    · exact h.failAt _ pos _
    · exact h.bind (h.bindAll caller t.env _) fun _ => h.body related t.env _

/-! Special forms. -/

theorem nodeOf (h : Compatible R) (pos : Position) (env : FrameId) (op : Operand) :
    R Node (SpecialForm.nodeOf pos env op) (SpecialForm.nodeOf pos env op) := by
  unfold SpecialForm.nodeOf
  split
  · exact h.pure _
  · exact h.failAt _ pos env

theorem bodyOf (h : Compatible R) (pos : Position) (env : FrameId) (ops : List Operand) :
    R (List Node) (SpecialForm.bodyOf pos env ops) (SpecialForm.bodyOf pos env ops) := by
  induction ops with
  | nil => exact h.pure _
  | cons op ops ih => exact h.bind (h.nodeOf pos env op) fun _ => h.bind ih fun _ => h.pure _

theorem newClosure (h : Compatible R) (params : Params) (body : List Node) (env : FrameId) :
    R Value (SpecialForm.newClosure params body env) (SpecialForm.newClosure params body env) :=
  h.bind (h.onStore _) fun _ => h.pure _

theorem lambda (h : Compatible R) (ops : List Operand) (env : FrameId) (pos : Position) :
    R Value (SpecialForm.runLambda ops env pos) (SpecialForm.runLambda ops env pos) := by
  unfold SpecialForm.runLambda
  split
  · exact h.bind (h.nodeOf pos env _) fun spec => h.bind (h.ofSyntax (Params.ofNode_late spec)) fun _ =>
      h.bind (h.bodyOf pos env _) fun _ => h.newClosure _ _ env
  · exact h.fail _

theorem definition (h : Compatible R) (related : Evaluator.Related R ev other) (ops : List Operand)
    (env : FrameId) (pos : Position) :
    R Value (SpecialForm.runDefine ev ops env pos) (SpecialForm.runDefine other ops env pos) := by
  unfold SpecialForm.runDefine
  split
  · refine h.bind (h.nodeOf pos env _) fun target => ?_
    split
    · exact h.bind (h.ofFault _) fun _ => h.bind (h.operand related env _) fun _ =>
        h.bind (h.define env _ _) fun _ => h.pure _
    · exact h.bind (h.ofSyntax (Params.signature_late _ _)) fun _ =>
        h.bind (h.bodyOf pos env _) fun _ => h.bind (h.newClosure _ _ env) fun _ =>
          h.bind (h.define env _ _) fun _ => h.pure _
    · exact h.bind (h.ofSyntax (.error rfl)) fun _ => h.pure _
  · exact h.fail _

theorem syntaxDefinition (h : Compatible R) (related : Evaluator.Related R ev other)
    (ops : List Operand) (env : FrameId) (pos : Position) :
    R Value (SpecialForm.runDefineSyntax ev ops env pos)
      (SpecialForm.runDefineSyntax other ops env pos) := by
  unfold SpecialForm.runDefineSyntax
  split
  · refine h.bind (h.nodeOf pos env _) fun target => ?_
    split
    · exact h.running _ rfl
    · refine h.bind (h.forced related env _) fun value => ?_
      split
      · exact h.bind (h.define env _ _) fun _ => h.pure _
      · exact h.fail _
  · exact h.fail _

theorem rulesOf (h : Compatible R) (keywords : List String) (pos : Position) (env : FrameId)
    (ops : List Operand) : R (List Rule) (SpecialForm.rulesOf keywords pos env ops)
      (SpecialForm.rulesOf keywords pos env ops) := by
  induction ops with
  | nil => exact h.pure _
  | cons op ops ih =>
    refine h.bind (h.nodeOf pos env op) fun n => ?_
    split
    · exact h.failAt _ _ env
    · exact h.bind ih fun _ => h.pure _

theorem syntaxRules (h : Compatible R) (ops : List Operand) (env : FrameId) (pos : Position) :
    R Value (SpecialForm.runSyntaxRules ops env pos) (SpecialForm.runSyntaxRules ops env pos) := by
  unfold SpecialForm.runSyntaxRules
  split
  · exact h.failAt _ pos env
  · split
    · exact h.failAt _ pos env
    · exact h.bind (h.rulesOf _ pos env _) fun _ => h.bind (h.onStore _) fun _ => h.pure _

theorem quotation (h : Compatible R) (ops : List Operand) :
    R Value (SpecialForm.runQuotation ops) (SpecialForm.runQuotation ops) := by
  unfold SpecialForm.runQuotation
  split
  · exact h.pure _
  · exact h.quote (Datum.ofNode_late _)
  · exact h.quote (Datum.ofNode_late _)
  · exact h.fail _

theorem conditional (h : Compatible R) (related : Evaluator.Related R ev other) (ops : List Operand)
    (env : FrameId) :
    R Value (SpecialForm.runConditional ev ops env) (SpecialForm.runConditional other ops env) := by
  unfold SpecialForm.runConditional
  split
  · refine h.bind (h.forced related env _) fun test => ?_
    split
    · exact h.operand related env _
    · exact h.pure _
  · refine h.bind (h.forced related env _) fun test => ?_
    split
    · exact h.operand related env _
    · exact h.operand related env _
  · exact h.fail _

theorem sequence (h : Compatible R) (related : Evaluator.Related R ev other) (env : FrameId)
    (ops : List Operand) :
    R Value (SpecialForm.runSequence ev env ops) (SpecialForm.runSequence other env ops) := by
  match ops with
  | [] => exact h.pure _
  | [op] => exact h.forced related env op
  | op :: next :: ops =>
    exact h.bind (h.forced related env op) fun _ => h.sequence related env (next :: ops)

theorem forms (h : Compatible R) (related : Evaluator.Related R ev other) (env : FrameId)
    (ops : List Operand) :
    R Value (SpecialForm.runForms ev env ops) (SpecialForm.runForms other env ops) := by
  match ops with
  | [] => exact h.pure _
  | [op] => exact h.operand related env op
  | op :: next :: ops =>
    exact h.bind (h.operand related env op) fun _ => h.forms related env (next :: ops)

theorem bindLocals (h : Compatible R) (related : Evaluator.Related R ev other) (env inner : FrameId)
    (pos : Position) (ops : List Operand) : R Unit (SpecialForm.bindLocals ev env inner pos ops)
      (SpecialForm.bindLocals other env inner pos ops) := by
  induction ops with
  | nil => exact h.pure _
  | cons op ops ih =>
    unfold SpecialForm.bindLocals
    split
    · exact h.failAt _ pos env
    · exact h.bind (h.forced related env _) fun _ => h.bind (h.define inner _ _) fun _ => ih

theorem localBinding (h : Compatible R) (related : Evaluator.Related R ev other)
    (ops : List Operand) (env : FrameId) (pos : Position) :
    R Value (SpecialForm.runLocalBinding ev ops env pos)
      (SpecialForm.runLocalBinding other ops env pos) := by
  unfold SpecialForm.runLocalBinding
  split
  · refine h.bind (h.onStore _) fun inner => ?_
    split
    · exact h.failAt _ pos env
    · exact h.bind (h.bindLocals related env inner pos _) fun _ => h.forms related inner _
  · exact h.fail _

theorem delay (h : Compatible R) (ops : List Operand) (env : FrameId) :
    R Value (SpecialForm.runDelay ops env) (SpecialForm.runDelay ops env) := by
  unfold SpecialForm.runDelay
  split
  · exact h.pure _
  · exact h.fail _

theorem specialForm (h : Compatible R) (related : Evaluator.Related R ev other) (form : SpecialForm)
    (ops : List Operand) (env : FrameId) (pos : Position) :
    R Value (form.run ev ops env pos) (form.run other ops env pos) := by
  cases form with
  | lambda => exact h.lambda ops env pos
  | define => exact h.definition related ops env pos
  | defineSyntax => exact h.syntaxDefinition related ops env pos
  | syntaxRules => exact h.syntaxRules ops env pos
  | quotation => exact h.quotation ops
  | conditional => exact h.conditional related ops env
  | sequence => exact h.sequence related env ops
  | localBinding => exact h.localBinding related ops env pos
  | delay => exact h.delay ops env

/-! One step, and evaluators of bounded depth. -/

/-- What is applied is neither a closure nor a transformer. -/
theorem operate_plain (h : Compatible R) (related : Evaluator.Related R ev other) {op : Value}
    (noClosure : ∀ c, op ≠ .closure c) (noTransformer : ∀ t, op ≠ .transformer t)
    (ops : List Operand) (env : FrameId) (pos : Position) :
    R Value (ev.operate op ops env pos) (other.operate op ops env pos) := by
  unfold Evaluator.operate
  split
  next => exact h.specialForm related _ ops env pos
  next => exact h.bind (h.operands related env ops) fun _ => h.primitive related.force _ _
  next c => exact absurd rfl (noClosure c)
  next t => exact absurd rfl (noTransformer t)
  next => exact h.bind (h.readStore _) fun _ => h.failAt _ pos env

/-- A form that is no application needs no evaluator. -/
theorem evalStep_plain (h : Compatible R) {n : Node}
    (plain : ∀ operator args pos, n ≠ .list (operator :: args) pos) (env : FrameId) :
    R Value (ev.evalStep n env) (other.evalStep n env) := by
  unfold Evaluator.evalStep
  split
  · exact h.pure _
  · exact h.pure _
  · exact h.pure _
  · exact h.pure _
  · exact h.quote (Datum.ofNode_late _)
  · exact h.quote (Datum.ofVectorNode_late _ _)
  · exact h.lookup _ _ env
  · exact h.pure _
  · exact absurd rfl (plain _ _ _)
  · exact h.late _ rfl
  · exact h.late _ rfl

theorem forceStep (h : Compatible R) (related : Evaluator.Related R ev other) (v : Value) :
    R Value (ev.forceStep v) (other.forceStep v) := by
  unfold Evaluator.forceStep
  split
  · exact h.bind (related.eval _ _) fun _ => related.force _
  · exact h.pure _

variable (note : ∀ call, R Unit (Eval.note call) (Eval.note call))

include note

theorem call (h : Compatible R) (related : Evaluator.Related R ev other) (c : Closure)
    (args : List Value) (pos : Position) : R Value (c.call ev args pos) (c.call other args pos) :=
  h.bind (h.onStore _) fun env => h.bind (note _) fun _ =>
    h.bind (h.bindParams c.params args env pos) fun _ => h.body related env c.body

theorem operate (h : Compatible R) (related : Evaluator.Related R ev other) (op : Value)
    (ops : List Operand) (env : FrameId) (pos : Position) :
    R Value (ev.operate op ops env pos) (other.operate op ops env pos) := by
  by_cases closure : ∃ c, op = .closure c
  · obtain ⟨c,rfl⟩ := closure
    exact h.bind (h.operands related env ops) fun _ => h.call note related c _ pos
  by_cases transformer : ∃ t, op = .transformer t
  · obtain ⟨t,rfl⟩ := transformer
    exact h.bind (note _) fun _ => h.expand related t ops env pos
  exact h.operate_plain related (by simpa using closure) (by simpa using transformer) ops env pos

end Eval.Compatible

namespace Eval.Congruence

variable {R : (α : Type) → Eval α → Eval α → Prop} {ev other : Evaluator}

theorem apply (h : Congruence R) (related : Evaluator.Related R ev other) (op : Value)
    (ops : List Operand) (env : FrameId) (pos : Position) :
    R Value (ev.apply op ops env pos) (other.apply op ops env pos) :=
  h.traced pos env (h.operate h.note related op ops env pos)

theorem evalStep (h : Congruence R) (related : Evaluator.Related R ev other) (n : Node)
    (env : FrameId) : R Value (ev.evalStep n env) (other.evalStep n env) := by
  by_cases application : ∃ operator args pos, n = .list (operator :: args) pos
  · obtain ⟨operator,args,pos,rfl⟩ := application
    exact h.bind (related.eval operator env) fun _ => h.bind (related.force _) fun op =>
      h.bind (h.collect (h.splice fun _ _ => h.traced) env args) fun ops =>
        h.apply related op ops env pos
  · exact h.evalStep_plain (by simpa using application) env

theorem step (h : Congruence R) {fuel more : Nat}
    (related : Evaluator.Related R (.ofFuel fuel) (.ofFuel more)) :
    Evaluator.Related R (.ofFuel (fuel + 1)) (.ofFuel (more + 1)) :=
  ⟨h.evalStep related,h.forceStep related⟩

end Eval.Congruence
end MiniScheme
