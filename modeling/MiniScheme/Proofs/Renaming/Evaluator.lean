import MiniScheme.Proofs.Renaming.Eval

/-! The evaluator in a mirror. Closures, transformers and special forms do the same with renamed
operands, so evaluators of every depth do the same on both sides. -/
namespace MiniScheme

variable {m : Mirror} {ev other : Evaluator} {pos : Position}

namespace Closure

theorem bindFixed_mirrors (env : FrameId) (names : List String) (args : List Value) :
    Eval.Mirrors m (fun done => done) (bindFixed env names args)
      (bindFixed (m.frame env) names (args.map m.value)) := by
  induction names generalizing args with
  | nil => exact .pure rfl
  | cons name names ih =>
    cases args with
    | nil => exact .pure rfl
    | cons arg args => exact .bind (.define env name arg) fun _ => ih args

theorem bindParams_mirrors (params : Params) (args : List Value) (env : FrameId) :
    Eval.Mirrors m (fun done => done) (bindParams params args env pos)
      (bindParams params (args.map m.value) (m.frame env) pos) := by
  unfold bindParams
  rw [List.length_map,← List.map_drop]
  split
  · split
    · exact bindFixed_mirrors env _ args
    · exact .failAt _ env
  · split
    · exact .failAt _ env
    · exact .bind (bindFixed_mirrors env _ args) fun _ =>
        .bind (.newList _) fun list => .define env _ list

/-- The number of a procedure plays no part in a call. -/
theorem call_mirrors (mirrors : Evaluator.Mirrors m ev other) (c : Closure) (number : Nat)
    (args : List Value) :
    Eval.Mirrors m m.value (c.call ev args pos)
      (call other ⟨number,c.params,c.body,m.frame c.env⟩ (args.map m.value) pos) := by
  rw [call,call,List.length_map]
  exact .bind (.newChild c.env) fun child => .bind (.note _) fun _ =>
    .bind (bindParams_mirrors c.params args child) fun _ => mirrors.body child c.body

end Closure

def Capture.rename (r : Renaming) : Capture → Capture
  | one op => one (op.rename r)
  | many ops => many (ops.map (Operand.rename r))

namespace PatternItem

variable (r : Renaming)

theorem isKeyword_rename (name : String) (op : Operand) :
    isKeyword name (op.rename r) = isKeyword name op := by
  cases op with
  | node n => rfl
  | deferred d => rfl
  | value v => cases v <;> rfl

mutual

theorem admits_rename : (item : PatternItem) → (op : Operand) →
    item.admits (op.rename r) = item.admits op
  | atom _,_ | vararg _,_ => rfl
  | keyword name,op => isKeyword_rename r name op
  | list sub,op => by
    rw [admits,admits,op.children?_rename r]
    cases op.children? with
    | none => rfl
    | some ops => simp only [Option.map_some,List.length_map,admitsAll_rename sub ops]

theorem admitsAll_rename : (items : List PatternItem) → (ops : List Operand) →
    admitsAll items (ops.map (Operand.rename r)) = admitsAll items ops
  | [],_ => rfl
  | _ :: _,[] => rfl
  | item :: items,op :: ops => by
    rw [List.map_cons,admitsAll,admitsAll,admits_rename item op,admitsAll_rename items ops]

end

theorem matchesAll_rename (pattern : List PatternItem) (ops : List Operand) :
    matchesAll pattern (ops.map (Operand.rename r)) = matchesAll pattern ops := by
  rw [matchesAll,matchesAll,List.length_map,admitsAll_rename]

mutual

theorem capture?_rename : (item : PatternItem) → (ops : List Operand) →
    item.capture? (ops.map (Operand.rename r)) =
      (item.capture? ops).map (List.map fun entry => (entry.1,entry.2.rename r))
  | vararg _,_ => rfl
  | atom _,[] | keyword _,[] | list _,[] => rfl
  | atom _,_ :: _ | keyword _,_ :: _ => rfl
  | list sub,op :: _ => by
    rw [List.map_cons,capture?,capture?,op.children?_rename r]
    cases op.children? with
    | none => rfl
    | some ops => exact captures?_rename sub ops

theorem captures?_rename : (items : List PatternItem) → (ops : List Operand) →
    captures? items (ops.map (Operand.rename r)) =
      (captures? items ops).map (List.map fun entry => (entry.1,entry.2.rename r))
  | [],_ => rfl
  | item :: items,ops => by
    rw [captures?,captures?,capture?_rename item ops,← List.map_drop,captures?_rename items (ops.drop 1)]
    cases item.capture? ops with
    | none => rfl
    | some first => cases captures? items (ops.drop 1) <;> simp

end

end PatternItem

theorem Capture.bindAll_mirrors (caller target : FrameId) (captures : List (String × Capture)) :
    Eval.Mirrors m id (bindAll caller target captures) (bindAll (m.frame caller) (m.frame target)
      (captures.map fun entry => (entry.1,entry.2.rename m.toRenaming))) := by
  induction captures with
  | nil => exact .pure rfl
  | cons entry captures ih =>
    obtain ⟨name,capture⟩ := entry
    have value : Eval.Mirrors m m.value (capture.toValue caller)
        ((capture.rename m.toRenaming).toValue (m.frame caller)) := by
      cases capture with
      | one op => exact .pure (op.delay_rename m caller)
      | many ops =>
        have delayed : (ops.map m.operand).map (Operand.delay (m.frame caller)) =
            (ops.map (Operand.delay caller)).map m.value := by
          simp [Operand.delay_rename]
        rw [rename,toValue,toValue,delayed]
        exact .newList _
    exact .bind value fun v => .bind (.define target name v) fun _ => ih

theorem Transformer.expand_mirrors (mirrors : Evaluator.Mirrors m ev other) (t : Transformer)
    (ops : List Operand) (caller : FrameId) :
    Eval.Mirrors m m.value (t.expand ev ops caller pos)
      (expand other ⟨m.number t.id,t.rules,m.frame t.env⟩ (ops.map m.operand)
        (m.frame caller) pos) := by
  simp only [expand,PatternItem.matchesAll_rename,PatternItem.captures?_rename]
  cases t.rules.find? _ with
  | none => exact .failAt _ t.env
  | some rule =>
    dsimp only
    cases PatternItem.captures? rule.pattern ops with
    | none => exact .failAt _ t.env
    | some captures =>
      exact .bind (Capture.bindAll_mirrors caller t.env captures) fun _ => mirrors.body t.env rule.body

namespace SpecialForm

theorem nodeOf_mirrors (env : FrameId) (op : Operand) :
    Eval.Mirrors m id (nodeOf pos env op) (nodeOf pos (m.frame env) (m.operand op)) := by
  rw [nodeOf,nodeOf,Operand.node?_rename]
  cases op.node? with
  | some n => exact .pure rfl
  | none => exact .failAt _ env

theorem bodyOf_mirrors (env : FrameId) (ops : List Operand) :
    Eval.Mirrors m id (bodyOf pos env ops)
      (bodyOf pos (m.frame env) (ops.map m.operand)) := by
  induction ops with
  | nil => exact .pure rfl
  | cons op ops ih => exact .bind (nodeOf_mirrors env op) fun _ => .bind ih fun _ => .pure rfl

/-- A number is given out, so it is below the limit. -/
theorem nextFresh_mirrors :
    Eval.Mirrors m m.number (Eval.onStore Store.nextFresh) (Eval.onStore Store.nextFresh) :=
  .onStore (fun _ => .of_frames rfl (Nat.le_succ _)) fun shows admits => shows.nextFresh admits.fresh

theorem newClosure_mirrors (params : Params) (body : List Node) (env : FrameId) :
    Eval.Mirrors m m.value (newClosure params body env)
      (newClosure params body (m.frame env)) :=
  .bind nextFresh_mirrors fun _ => .pure rfl

theorem runLambda_mirrors (ops : List Operand) (env : FrameId) :
    Eval.Mirrors m m.value (runLambda ops env pos)
      (runLambda (ops.map m.operand) (m.frame env) pos) := by
  match ops with
  | [] | [_] => exact .fail _
  | formals :: form :: forms =>
    exact .bind (nodeOf_mirrors env formals) fun spec => .bind (.ofSyntax _) fun params =>
      .bind (bodyOf_mirrors env (form :: forms)) fun body => newClosure_mirrors params body env

theorem runSyntaxRules_mirrors (ops : List Operand) (env : FrameId) :
    Eval.Mirrors m m.value (runSyntaxRules ops env pos)
      (runSyntaxRules (ops.map m.operand) (m.frame env) pos) := by
  cases ops with
  | nil => exact .failAt _ env
  | cons reserved rest =>
    have rules (keywords : List String) : Eval.Mirrors m id (rulesOf keywords pos env rest)
        (rulesOf keywords pos (m.frame env) (rest.map m.operand)) := by
      induction rest with
      | nil => exact .pure rfl
      | cons op ops ih =>
        refine .bind (nodeOf_mirrors env op) fun n => ?_
        dsimp only [id]
        cases ruleOf? keywords n with
        | none => exact .failAt _ env
        | some rule => exact .bind ih fun _ => .pure rfl
    rw [List.map_cons,runSyntaxRules,runSyntaxRules,Operand.node?_rename]
    split
    · exact .failAt _ env
    · exact .bind (rules _) fun _ => .bind nextFresh_mirrors fun _ => .pure rfl

theorem runQuotation_mirrors (ops : List Operand) :
    Eval.Mirrors m m.value (runQuotation ops)
      (runQuotation (ops.map m.operand)) := by
  match ops with
  | [.value v] => exact .pure rfl
  | [.node n] => exact .quote _
  | [.deferred d] => exact .quote _
  | [] => exact .fail _
  | op :: _ :: _ =>
    cases op <;> simp only [runQuotation,List.map_cons,Operand.rename,List.length_cons,List.length_map]
      <;> exact .fail _

theorem runDelay_mirrors (ops : List Operand) (env : FrameId) :
    Eval.Mirrors m m.value (runDelay ops env)
      (runDelay (ops.map m.operand) (m.frame env)) := by
  match ops with
  | [op] => exact .pure (op.delay_rename m env)
  | [] => exact .fail _
  | _ :: _ :: _ =>
    simp only [runDelay,List.map_cons,List.length_cons,List.length_map]
    exact .fail _

theorem bindingOf?_rename (r : Renaming) (op : Operand) :
    bindingOf? (op.rename r) = (bindingOf? op).map fun binding => (binding.1,binding.2.rename r) := by
  rw [bindingOf?,bindingOf?,op.children?_rename r]
  cases op.children? with
  | none => rfl
  | some parts =>
    match parts with
    | [name,init] =>
      simp only [Option.map_some,List.map_cons,List.map_nil,name.node?_rename r]
      cases name.node?.bind Node.name? <;> rfl
    | [] | [_] | _ :: _ :: _ :: _ => rfl

section Evaluating

variable (mirrors : Evaluator.Mirrors m ev other)
include mirrors

theorem runDefine_mirrors (ops : List Operand) (env : FrameId) :
    Eval.Mirrors m m.value (runDefine ev ops env pos)
      (runDefine other (ops.map m.operand) (m.frame env) pos) := by
  match ops with
  | [] | [_] => exact .fail _
  | target :: op :: more =>
    simp only [runDefine,List.map_cons,List.length_cons,List.length_map]
    refine .bind (nodeOf_mirrors env target) fun n => ?_
    cases n with
    | symbol name _ =>
      exact .bind (.ofFault _) fun _ => .bind (Operand.eval_mirrors mirrors env op) fun v =>
        .bind (.define env name v) fun _ => .pure rfl
    | list nodes place =>
      exact .bind (.ofSyntax _) fun signature => .bind (bodyOf_mirrors env (op :: more)) fun body =>
        .bind (newClosure_mirrors signature.2 body env) fun procedure =>
          .bind (.define env signature.1 procedure) fun _ => .pure rfl
    | string | char | boolean | number | quote | dot | sharp =>
      exact .bind (.ofSyntax _) fun _ => .pure rfl

theorem runDefineSyntax_mirrors (ops : List Operand) (env : FrameId) :
    Eval.Mirrors m m.value (runDefineSyntax ev ops env pos)
      (runDefineSyntax other (ops.map m.operand) (m.frame env) pos) := by
  match ops with
  | [] | [_] => exact .fail _
  | _ :: _ :: _ :: _ =>
    simp only [runDefineSyntax,List.map_cons,List.length_cons,List.length_map]
    exact .fail _
  | [target,op] =>
    refine .bind (nodeOf_mirrors env target) fun n => ?_
    dsimp only [id]
    cases n.name? with
    | none => exact .throw (by simp [Failure.rename,RuntimeError.rename])
    | some name =>
      refine .bind (Operand.evalForced_mirrors mirrors env op) fun v => ?_
      cases v with
      | transformer t => exact .bind (.define env name (.transformer t)) fun _ => .pure rfl
      | unspecified | nil | boolean | char | string | symbol | number | pair | vector | closure
      | delayed | primitive | form => exact .fail _

theorem runConditional_mirrors (ops : List Operand) (env : FrameId) :
    Eval.Mirrors m m.value (runConditional ev ops env)
      (runConditional other (ops.map m.operand) (m.frame env)) := by
  match ops with
  | [] | [_] => exact .fail _
  | [test,yes] =>
    refine .bind (Operand.evalForced_mirrors mirrors env test) fun v => ?_
    rw [Value.rename_isTrue]
    split
    · exact Operand.eval_mirrors mirrors env yes
    · exact .pure rfl
  | [test,yes,no] =>
    refine .bind (Operand.evalForced_mirrors mirrors env test) fun v => ?_
    rw [Value.rename_isTrue]
    split
    · exact Operand.eval_mirrors mirrors env yes
    · exact Operand.eval_mirrors mirrors env no
  | _ :: _ :: _ :: _ :: _ =>
    simp only [runConditional,List.map_cons,List.length_cons,List.length_map]
    exact .fail _

theorem runSequence_mirrors (env : FrameId) (ops : List Operand) :
    Eval.Mirrors m m.value (runSequence ev env ops)
      (runSequence other (m.frame env) (ops.map m.operand)) := by
  match ops with
  | [] => exact .pure rfl
  | [op] => exact Operand.evalForced_mirrors mirrors env op
  | op :: next :: ops =>
    exact .bind (Operand.evalForced_mirrors mirrors env op) fun _ =>
      runSequence_mirrors env (next :: ops)

theorem runForms_mirrors (env : FrameId) (ops : List Operand) :
    Eval.Mirrors m m.value (runForms ev env ops)
      (runForms other (m.frame env) (ops.map m.operand)) := by
  match ops with
  | [] => exact .pure rfl
  | [op] => exact Operand.eval_mirrors mirrors env op
  | op :: next :: ops =>
    exact .bind (Operand.eval_mirrors mirrors env op) fun _ => runForms_mirrors env (next :: ops)

theorem bindLocals_mirrors (env inner : FrameId) (ops : List Operand) :
    Eval.Mirrors m id (bindLocals ev env inner pos ops)
      (bindLocals other (m.frame env) (m.frame inner) pos (ops.map m.operand)) := by
  induction ops with
  | nil => exact .pure rfl
  | cons op ops ih =>
    rw [List.map_cons,bindLocals,bindLocals,bindingOf?_rename]
    cases bindingOf? op with
    | none => exact .failAt _ env
    | some binding =>
      exact .bind (Operand.evalForced_mirrors mirrors env binding.2) fun v =>
        .bind (.define inner binding.1 v) fun _ => ih

theorem runLocalBinding_mirrors (ops : List Operand) (env : FrameId) :
    Eval.Mirrors m m.value (runLocalBinding ev ops env pos)
      (runLocalBinding other (ops.map m.operand) (m.frame env) pos) := by
  match ops with
  | [] | [_] => exact .fail _
  | bindings :: form :: forms =>
    refine .bind (.newChild env) fun inner => ?_
    rw [bindings.children?_rename m.toRenaming]
    cases bindings.children? with
    | none => exact .failAt _ env
    | some locals =>
      exact .bind (bindLocals_mirrors mirrors env inner locals) fun _ =>
        runForms_mirrors mirrors inner (form :: forms)

theorem run_mirrors (form : SpecialForm) (ops : List Operand) (env : FrameId) :
    Eval.Mirrors m m.value (form.run ev ops env pos)
      (form.run other (ops.map m.operand) (m.frame env) pos) := by
  cases form with
  | lambda => exact runLambda_mirrors ops env
  | define => exact runDefine_mirrors mirrors ops env
  | defineSyntax => exact runDefineSyntax_mirrors mirrors ops env
  | syntaxRules => exact runSyntaxRules_mirrors ops env
  | quotation => exact runQuotation_mirrors ops
  | conditional => exact runConditional_mirrors mirrors ops env
  | sequence => exact runSequence_mirrors mirrors env ops
  | localBinding => exact runLocalBinding_mirrors mirrors ops env
  | delay => exact runDelay_mirrors ops env

end Evaluating

end SpecialForm

namespace Evaluator

theorem operate_mirrors (mirrors : Mirrors m ev other) (op : Value) (ops : List Operand)
    (env : FrameId) :
    Eval.Mirrors m m.value (ev.operate op ops env pos)
      (other.operate (m.value op) (ops.map m.operand) (m.frame env) pos) := by
  cases op with
  | form f => exact f.run_mirrors mirrors ops env
  | primitive p =>
    exact .bind (Operand.evalAll_mirrors mirrors env ops) fun args => p.run_mirrors mirrors.force args
  | closure c =>
    exact .bind (Operand.evalAll_mirrors mirrors env ops) fun args =>
      c.call_mirrors mirrors (m.number c.id) args
  | transformer t =>
    simp only [Mirror.value,Value.rename,operate,List.length_map]
    exact .bind (.note _) fun _ => t.expand_mirrors mirrors ops env
  | unspecified | nil | boolean | char | string | symbol | number | pair | vector | delayed =>
    exact .bind (f := id) (.readStore fun shows => shows.text _) fun _ => .failAt _ env

theorem evalStep_mirrors (mirrors : Mirrors m ev other) (n : Node) (env : FrameId) :
    Eval.Mirrors m m.value (ev.evalStep n env)
      (other.evalStep n (m.frame env)) := by
  cases n with
  | string | char | boolean | number => exact .pure rfl
  | quote kind inner pos => cases kind <;> exact .quote _
  | symbol name pos => exact .lookup name env
  | dot | sharp => exact .throw rfl
  | list items pos =>
    cases items with
    | nil => exact .pure rfl
    | cons operator args =>
      exact .bind (mirrors.eval operator env) fun v => .bind (mirrors.force v) fun op =>
        .bind (Operand.collect_mirrors env args) fun ops =>
          .traced env (operate_mirrors mirrors op ops env)

theorem forceStep_mirrors (mirrors : Mirrors m ev other) (v : Value) :
    Eval.Mirrors m m.value (ev.forceStep v)
      (other.forceStep (m.value v)) := by
  cases v with
  | delayed d => exact .bind (mirrors.eval d.node d.env) mirrors.force
  | unspecified | nil | boolean | char | string | symbol | number | pair | vector | closure
  | transformer | primitive | form => exact .pure rfl

/-- Evaluation does the same in the mirror, at any depth. -/
theorem ofFuel_mirrors (m : Mirror) (fuel : Nat) : Mirrors m (ofFuel fuel) (ofFuel fuel) := by
  induction fuel with
  | zero => exact ⟨fun _ _ => .throw rfl,fun _ => .throw rfl⟩
  | succ fuel ih => exact ⟨evalStep_mirrors ih,forceStep_mirrors ih⟩

end Evaluator
end MiniScheme
