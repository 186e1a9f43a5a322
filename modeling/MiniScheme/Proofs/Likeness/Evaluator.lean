import MiniScheme.Eval.Global
import MiniScheme.Proofs.Likeness.Eval

/-! The evaluator and likeness. Closures, transformers and special forms do like things with like
operands, so evaluators of every depth take like forms to like computations. -/
namespace MiniScheme

variable {L : Likeness} {ev other : Evaluator} {vs ws : List Value} {as bs : List Operand}
  {p q : Position}

namespace Closure

theorem bindFixed_like (env : FrameId) (names : List String) (args : Value.LikeAll L vs ws) :
    Eval.Like L Eq (bindFixed env names vs) (bindFixed env names ws) := by
  induction args generalizing names with
  | nil => cases names <;> exact .pure rfl
  | cons head _ ih =>
    cases names with
    | nil => exact .pure rfl
    | cons name names => exact .bind (.define env name head) fun _ => ih names

theorem bindParams_like (params : Params) (args : Value.LikeAll L vs ws) (env : FrameId)
    (place : L.place p q) :
    Eval.Like L Eq (bindParams params vs env p) (bindParams params ws env q) := by
  unfold bindParams
  rw [args.length_eq]
  split
  · split
    · exact bindFixed_like env _ args
    · exact .failAt _ place env
  · split
    · exact .failAt _ place env
    · exact .bind (bindFixed_like env _ args) fun _ =>
        .bind (.newList (List.forall₂_drop _ args)) fun list => .define env _ list

theorem call_like (like : Evaluator.Like L ev other) (id : Nat) (params : Params) (env : FrameId)
    {ns ms : List Node} (body : Node.LikeAll L ns ms) (args : Value.LikeAll L vs ws)
    (place : L.place p q) :
    Eval.Like L (Value.Like L) (call ev ⟨id,params,ns,env⟩ vs p)
      (call other ⟨id,params,ms,env⟩ ws q) := by
  refine .bind (.newChild env) ?_
  rintro child _ rfl
  exact .bind (.note _ _) fun _ => .bind (bindParams_like params args child place) fun _ =>
    like.body child body

end Closure

inductive Capture.Like (L : Likeness) : Capture → Capture → Prop where
  | one {a b : Operand} : Operand.Like L a b → Like L (.one a) (.one b)
  | many {as bs : List Operand} : Operand.LikeAll L as bs → Like L (.many as) (.many bs)

/-- Like captures under the same names. -/
abbrev Capture.LikeAll (L : Likeness) : List (String × Capture) → List (String × Capture) → Prop :=
  List.Forall₂ fun x y => x.1 = y.1 ∧ Capture.Like L x.2 y.2

namespace PatternItem

theorem isKeyword_like (name : String) {a b : Operand} (like : Operand.Like L a b) :
    isKeyword name a = isKeyword name b := by
  have same := like.name?
  cases like with
  | value value => cases value <;> rfl
  | node | deferred => simp only [isKeyword,same]

mutual

theorem admits_like : (item : PatternItem) → {a b : Operand} → Operand.Like L a b →
    item.admits a = item.admits b
  | atom _,_,_,_ | vararg _,_,_,_ => rfl
  | keyword name,_,_,like => isKeyword_like name like
  | list sub,a,b,like => by
    have found := like.children?
    rw [admits,admits]
    generalize a.children? = x,b.children? = y at found ⊢
    cases found with
    | none => rfl
    | some ops => simp only [ops.length_eq,admitsAll_like sub ops]

theorem admitsAll_like : (items : List PatternItem) → {as bs : List Operand} →
    Operand.LikeAll L as bs → admitsAll items as = admitsAll items bs
  | [],_,_,_ => rfl
  | item :: items,_,_,.nil => rfl
  | item :: items,_,_,.cons head tail => by
    rw [admitsAll,admitsAll,admits_like item head,admitsAll_like items tail]

end

theorem matchesAll_like (pattern : List PatternItem) (ops : Operand.LikeAll L as bs) :
    matchesAll pattern as = matchesAll pattern bs := by
  rw [matchesAll,matchesAll,ops.length_eq,admitsAll_like pattern ops]

mutual

theorem capture?_like : (item : PatternItem) → {as bs : List Operand} → Operand.LikeAll L as bs →
    Option.Rel (Capture.LikeAll L) (item.capture? as) (item.capture? bs)
  | vararg _,_,_,ops => .some (.cons ⟨rfl,.many ops⟩ .nil)
  | atom _,_,_,.nil | keyword _,_,_,.nil | list _,_,_,.nil => .none
  | atom _,_,_,.cons head _ => .some (.cons ⟨rfl,.one head⟩ .nil)
  | keyword _,_,_,.cons _ _ => .some .nil
  | list sub,_,_,.cons head _ => rel_bind head.children? fun ops => captures?_like sub ops

theorem captures?_like : (items : List PatternItem) → {as bs : List Operand} →
    Operand.LikeAll L as bs → Option.Rel (Capture.LikeAll L) (captures? items as) (captures? items bs)
  | [],_,_,_ => .some .nil
  | item :: items,_,_,ops =>
    rel_bind (capture?_like item ops) fun first =>
      rel_bind (captures?_like items (List.forall₂_drop 1 ops)) fun rest =>
        .some (List.rel_append first rest)

end

end PatternItem

namespace Capture

theorem bindAll_like (caller target : FrameId) {xs ys : List (String × Capture)}
    (captures : LikeAll L xs ys) :
    Eval.Like L Eq (bindAll caller target xs) (bindAll caller target ys) := by
  induction captures with
  | nil => exact .pure rfl
  | @cons x y xs ys head _ ih =>
    obtain ⟨name,capture⟩ := x
    obtain ⟨same,operands⟩ := y
    obtain ⟨rfl,like⟩ : name = same ∧ _ := head
    have value : Eval.Like L (Value.Like L) (capture.toValue caller) (operands.toValue caller) := by
      cases like with
      | one op => exact .pure (op.delay caller)
      | many ops => exact .newList (List.rel_map (fun _ _ op => op.delay caller) ops)
    exact .bind value fun like => .bind (.define target name like) fun _ => ih

end Capture

namespace Transformer

theorem find?_like {rs ss : List Rule} (rules : List.Forall₂ (Rule.Like L) rs ss)
    (ops : Operand.LikeAll L as bs) :
    Option.Rel (Rule.Like L) (rs.find? fun rule => PatternItem.matchesAll rule.pattern as)
      (ss.find? fun rule => PatternItem.matchesAll rule.pattern bs) := by
  induction rules with
  | nil => exact .none
  | cons head _ ih =>
    rw [List.find?_cons,List.find?_cons,← head.pattern,← PatternItem.matchesAll_like _ ops]
    split
    · exact .some head
    · exact ih

theorem expand_like (like : Evaluator.Like L ev other) (id : Nat) (env : FrameId) {rs ss : List Rule}
    (rules : List.Forall₂ (Rule.Like L) rs ss) (ops : Operand.LikeAll L as bs) (caller : FrameId)
    (place : L.place p q) :
    Eval.Like L (Value.Like L) (expand ev ⟨id,rs,env⟩ as caller p)
      (expand other ⟨id,ss,env⟩ bs caller q) := by
  have found := find?_like rules ops
  unfold expand
  dsimp only
  generalize List.find? _ rs = x,List.find? _ ss = y at found ⊢
  cases found with
  | none => exact .failAt _ place env
  | @some rule new chosen =>
    have captures := PatternItem.captures?_like rule.pattern ops
    dsimp only
    rw [← chosen.pattern]
    generalize PatternItem.captures? rule.pattern as = x,PatternItem.captures? rule.pattern bs = y
      at captures ⊢
    cases captures with
    | none => exact .failAt _ place env
    | some captures =>
      exact .bind (Capture.bindAll_like caller env captures) fun _ => like.body env chosen.body

end Transformer

namespace SpecialForm

theorem nodeOf_like (place : L.place p q) (env : FrameId) {a b : Operand} (like : Operand.Like L a b) :
    Eval.Like L (Node.Like L) (nodeOf p env a) (nodeOf q env b) := by
  have found := like.node?
  rw [nodeOf,nodeOf]
  generalize a.node? = x,b.node? = y at found ⊢
  cases found with
  | some like => exact .pure like
  | none => exact .failAt _ place env

theorem bodyOf_like (place : L.place p q) (env : FrameId) (ops : Operand.LikeAll L as bs) :
    Eval.Like L (Node.LikeAll L) (bodyOf p env as) (bodyOf q env bs) := by
  induction ops with
  | nil => exact .pure .nil
  | cons head _ ih =>
    exact .bind (nodeOf_like place env head) fun node => .bind ih fun nodes => .pure (.cons node nodes)

theorem newClosure_like (params : Params) (env : FrameId) {ns ms : List Node}
    (body : Node.LikeAll L ns ms) :
    Eval.Like L (Value.Like L) (newClosure params ns env) (newClosure params ms env) := by
  refine .bind (.onStore fun store => store.nextFresh) ?_
  rintro id _ rfl
  exact .pure (.closure id params env body)

theorem runLambda_like (ops : Operand.LikeAll L as bs) (env : FrameId) (place : L.place p q) :
    Eval.Like L (Value.Like L) (runLambda as env p) (runLambda bs env q) := by
  cases ops with
  | nil => exact .fail _
  | cons formals body =>
    cases body with
    | nil => exact .fail _
    | cons form forms =>
      refine .bind (nodeOf_like place env formals) fun spec =>
        .bind (.ofSyntax (Params.ofNode_like spec)) ?_
      rintro params _ rfl
      exact .bind (bodyOf_like place env (.cons form forms)) fun body => newClosure_like params env body

theorem runDefine_like (like : Evaluator.Like L ev other) (ops : Operand.LikeAll L as bs)
    (env : FrameId) (place : L.place p q) :
    Eval.Like L (Value.Like L) (runDefine ev as env p) (runDefine other bs env q) := by
  have same := ops.length_eq
  cases ops with
  | nil => exact .fail _
  | cons target rest =>
    cases rest with
    | nil => exact .fail _
    | cons op more =>
      simp only [runDefine,same]
      refine .bind (nodeOf_like place env target) fun node => ?_
      cases node with
      | symbol name _ =>
        exact .bind (A := Eq) (.ofFault fun _ _ => rfl) fun _ =>
          .bind (Operand.eval_like like env op) fun value =>
            .bind (.define env name value) fun _ => .pure .unspecified
      | list items inner =>
        refine .bind (.ofSyntax (Params.signature_like items inner)) ?_
        rintro ⟨name,params⟩ _ rfl
        exact .bind (bodyOf_like place env (.cons op more)) fun body =>
          .bind (newClosure_like params env body) fun closure =>
            .bind (.define env name closure) fun _ => .pure .unspecified
      | string _ _ place | char _ place | boolean _ place | number _ place | quote _ _ place
      | dot place | sharp place =>
        exact .bind (A := Eq) (.ofSyntax (.fault _ place)) fun _ => .pure .unspecified

theorem runDefineSyntax_like (like : Evaluator.Like L ev other) (ops : Operand.LikeAll L as bs)
    (env : FrameId) (place : L.place p q) :
    Eval.Like L (Value.Like L) (runDefineSyntax ev as env p) (runDefineSyntax other bs env q) := by
  have same := ops.length_eq
  cases ops with
  | nil => exact .fail _
  | cons target rest =>
    cases rest with
    | nil => exact .fail _
    | cons op rest =>
      cases rest with
      | cons => simp only [runDefineSyntax,same]; exact .fail _
      | nil =>
        refine .bind (nodeOf_like place env target) fun {n m} node => ?_
        rw [node.name?]
        cases m.name? with
        | none => exact .throw (.running ⟨rfl,.some place,rfl,.nil⟩)
        | some name =>
          refine .bind (Operand.evalForced_like like env op) fun value => ?_
          cases value with
          | transformer id frame rules =>
            exact .bind (.define env name (.transformer id frame rules)) fun _ => .pure .unspecified
          | unspecified | nil | boolean | char | string | symbol | number | pair | vector | closure
          | delayed | primitive | form => exact .fail _

theorem ruleOf?_like (keywords : List String) {n m : Node} (like : Node.Like L n m) :
    Option.Rel (Rule.Like L) (ruleOf? keywords n) (ruleOf? keywords m) := by
  cases like with
  | string | char | boolean | number | quote | symbol | dot | sharp => exact .none
  | list items _ =>
    cases items with
    | nil => exact .none
    | cons pattern body =>
      cases body with
      | nil => exact .none
      | cons form forms =>
        refine rel_bind pattern.items? fun items => ?_
        rw [PatternItem.ofNodes?_like keywords (List.forall₂_drop 1 items)]
        cases PatternItem.ofNodes? keywords _ with
        | none => exact .none
        | some _ => exact .some ⟨rfl,.cons form forms⟩

theorem rulesOf_like (keywords : List String) (place : L.place p q) (env : FrameId)
    (ops : Operand.LikeAll L as bs) :
    Eval.Like L (List.Forall₂ (Rule.Like L)) (rulesOf keywords p env as)
      (rulesOf keywords q env bs) := by
  induction ops with
  | nil => exact .pure .nil
  | cons head _ ih =>
    refine .bind (nodeOf_like place env head) fun {n m} node => ?_
    have found := ruleOf?_like keywords node
    generalize ruleOf? keywords n = x,ruleOf? keywords m = y at found ⊢
    cases found with
    | none => exact .failAt _ node.pos env
    | some rule => exact .bind ih fun rules => .pure (.cons rule rules)

theorem names_like {ns ms : List Node} (nodes : Node.LikeAll L ns ms) :
    ns.mapM Node.name? = ms.mapM Node.name? := by
  induction nodes with
  | nil => rfl
  | cons head _ ih => rw [List.mapM_cons,List.mapM_cons,head.name?,ih]

theorem runSyntaxRules_like (ops : Operand.LikeAll L as bs) (env : FrameId) (place : L.place p q) :
    Eval.Like L (Value.Like L) (runSyntaxRules as env p) (runSyntaxRules bs env q) := by
  cases ops with
  | nil => exact .failAt _ place env
  | @cons a b as bs reserved rest =>
    have same : ((a.node?.bind Node.items?).bind fun items => items.mapM Node.name?) =
        (b.node?.bind Node.items?).bind fun items => items.mapM Node.name? := by
      have found : Option.Rel (Node.LikeAll L) (a.node?.bind Node.items?) (b.node?.bind Node.items?) :=
        rel_bind reserved.node? fun node => node.items?
      generalize a.node?.bind Node.items? = x,b.node?.bind Node.items? = y at found ⊢
      cases found with
      | some items => exact names_like items
      | none => rfl
    rw [runSyntaxRules,runSyntaxRules,same]
    split
    · exact .failAt _ place env
    · refine .bind (rulesOf_like _ place env rest) fun rules =>
        .bind (.onStore fun store => store.nextFresh) ?_
      rintro id _ rfl
      exact .pure (.transformer id env rules)

theorem runQuotation_like (ops : Operand.LikeAll L as bs) :
    Eval.Like L (Value.Like L) (runQuotation as) (runQuotation bs) := by
  have same := ops.length_eq
  cases ops with
  | nil => exact .fail _
  | cons op rest =>
    cases rest with
    | cons => simp only [runQuotation,same]; exact .fail _
    | nil =>
      cases op with
      | value like => exact .pure like
      | node like => exact .quote (Datum.ofNode_like like)
      | deferred like =>
        obtain ⟨env,like⟩ := like
        exact .quote (Datum.ofNode_like like)

theorem runConditional_like (like : Evaluator.Like L ev other) (ops : Operand.LikeAll L as bs)
    (env : FrameId) :
    Eval.Like L (Value.Like L) (runConditional ev as env) (runConditional other bs env) := by
  have same := ops.length_eq
  cases ops with
  | nil => exact .fail _
  | cons test branches =>
    have value := Operand.evalForced_like like env test
    cases branches with
    | nil => exact .fail _
    | cons yes rest =>
      have chosen := Operand.eval_like like env yes
      cases rest with
      | nil =>
        refine .bind value fun found => ?_
        rw [found.isTrue]
        split
        · exact chosen
        · exact .pure .unspecified
      | cons no rest =>
        cases rest with
        | nil =>
          refine .bind value fun found => ?_
          rw [found.isTrue]
          split
          · exact chosen
          · exact Operand.eval_like like env no
        | cons => simp only [runConditional,same]; exact .fail _

theorem runSequence_like (like : Evaluator.Like L ev other) (env : FrameId)
    (ops : Operand.LikeAll L as bs) :
    Eval.Like L (Value.Like L) (runSequence ev env as) (runSequence other env bs) := by
  induction ops with
  | nil => exact .pure .unspecified
  | cons head tail ih =>
    cases tail with
    | nil => exact Operand.evalForced_like like env head
    | cons => exact .bind (Operand.evalForced_like like env head) fun _ => ih

theorem runForms_like (like : Evaluator.Like L ev other) (env : FrameId)
    (ops : Operand.LikeAll L as bs) :
    Eval.Like L (Value.Like L) (runForms ev env as) (runForms other env bs) := by
  induction ops with
  | nil => exact .pure .unspecified
  | cons head tail ih =>
    cases tail with
    | nil => exact Operand.eval_like like env head
    | cons => exact .bind (Operand.eval_like like env head) fun _ => ih

/-- Like initialisers under the same name. -/
def LikeBinding (L : Likeness) (x y : String × Operand) : Prop :=
  x.1 = y.1 ∧ Operand.Like L x.2 y.2

theorem bindingOf?_like {a b : Operand} (like : Operand.Like L a b) :
    Option.Rel (LikeBinding L) (bindingOf? a) (bindingOf? b) := by
  have found := like.children?
  rw [bindingOf?,bindingOf?]
  generalize a.children? = x,b.children? = y at found ⊢
  cases found with
  | none => exact .none
  | some parts =>
    cases parts with
    | nil => exact .none
    | cons name rest =>
      cases rest with
      | nil => exact .none
      | cons init rest =>
        cases rest with
        | cons => exact .none
        | nil =>
          dsimp only
          rw [name.name?]
          cases Option.bind _ Node.name? with
          | none => exact .none
          | some _ => exact .some ⟨rfl,init⟩

theorem bindLocals_like (like : Evaluator.Like L ev other) (env inner : FrameId)
    (place : L.place p q) (ops : Operand.LikeAll L as bs) :
    Eval.Like L Eq (bindLocals ev env inner p as) (bindLocals other env inner q bs) := by
  induction ops with
  | nil => exact .pure rfl
  | @cons a b _ _ head _ ih =>
    have found := bindingOf?_like head
    rw [bindLocals,bindLocals]
    generalize bindingOf? a = x,bindingOf? b = y at found ⊢
    cases found with
    | none => exact .failAt _ place env
    | @some x y binding =>
      obtain ⟨name,init⟩ := x
      obtain ⟨same,value⟩ := y
      obtain ⟨rfl,operand⟩ : name = same ∧ _ := binding
      exact .bind (Operand.evalForced_like like env operand) fun value =>
        .bind (.define inner name value) fun _ => ih

theorem runLocalBinding_like (like : Evaluator.Like L ev other) (ops : Operand.LikeAll L as bs)
    (env : FrameId) (place : L.place p q) :
    Eval.Like L (Value.Like L) (runLocalBinding ev as env p) (runLocalBinding other bs env q) := by
  cases ops with
  | nil => exact .fail _
  | @cons a b _ _ bindings body =>
    cases body with
    | nil => exact .fail _
    | cons form forms =>
      refine .bind (.newChild env) ?_
      rintro inner _ rfl
      have found := bindings.children?
      generalize a.children? = x,b.children? = y at found ⊢
      cases found with
      | none => exact .failAt _ place env
      | some locals =>
        exact .bind (bindLocals_like like env inner place locals) fun _ =>
          runForms_like like inner (.cons form forms)

theorem runDelay_like (ops : Operand.LikeAll L as bs) (env : FrameId) :
    Eval.Like L (Value.Like L) (runDelay as env) (runDelay bs env) := by
  have same := ops.length_eq
  cases ops with
  | nil => exact .fail _
  | cons op rest =>
    cases rest with
    | nil => exact .pure (op.delay env)
    | cons => simp only [runDelay,same]; exact .fail _

theorem run_like (like : Evaluator.Like L ev other) (form : SpecialForm)
    (ops : Operand.LikeAll L as bs) (env : FrameId) (place : L.place p q) :
    Eval.Like L (Value.Like L) (form.run ev as env p) (form.run other bs env q) := by
  cases form with
  | lambda => exact runLambda_like ops env place
  | define => exact runDefine_like like ops env place
  | defineSyntax => exact runDefineSyntax_like like ops env place
  | syntaxRules => exact runSyntaxRules_like ops env place
  | quotation => exact runQuotation_like ops
  | conditional => exact runConditional_like like ops env
  | sequence => exact runSequence_like like env ops
  | localBinding => exact runLocalBinding_like like ops env place
  | delay => exact runDelay_like ops env

end SpecialForm

namespace Evaluator

theorem operate_like (like : Like L ev other) {v w : Value} (operator : Value.Like L v w)
    (ops : Operand.LikeAll L as bs) (env : FrameId) (place : L.place p q) :
    Eval.Like L (Value.Like L) (ev.operate v as env p) (other.operate w bs env q) := by
  have shown : Eval.Like L Eq (Eval.readStore fun s => s.text v) (Eval.readStore fun s => s.text w) :=
    .readStore fun store => store.text operator
  cases operator with
  | form f => exact f.run_like like ops env place
  | primitive prim =>
    exact .bind (Operand.evalAll_like like env ops) fun args => prim.run_like like.force args
  | closure id params frame body =>
    exact .bind (Operand.evalAll_like like env ops) fun args =>
      Closure.call_like like id params frame body args place
  | transformer id frame rules =>
    exact .bind (.note _ _) fun _ => Transformer.expand_like like id frame rules ops env place
  | unspecified | nil | boolean | char | string | symbol | number | pair | vector | delayed =>
    refine .bind shown ?_
    rintro text _ rfl
    exact .failAt _ place env

theorem evalStep_like (like : Like L ev other) (env : FrameId) {n m : Node} (form : Node.Like L n m) :
    Eval.Like L (Value.Like L) (ev.evalStep n env) (other.evalStep m env) := by
  cases form with
  | string text label _ => exact .pure (.string text label)
  | char c _ => exact .pure (.char c)
  | boolean b _ => exact .pure (.boolean b)
  | number known _ => exact .pure (.number known)
  | quote kind inner place =>
    cases kind with
    | list => exact .quote (Datum.ofNode_like inner)
    | vector => exact .quote (Datum.ofVectorNode_like inner place)
  | symbol name place => exact .lookup name place env
  | list items place =>
    cases items with
    | nil => exact .pure .nil
    | cons operator args =>
      exact .bind (like.eval env operator) fun value => .bind (like.force value) fun op =>
        .bind (Operand.collect_like env args) fun ops =>
          .traced place env (operate_like like op ops env place)
  | dot place => exact .throw (.reading (.intro _ place))
  | sharp place => exact .throw (.reading (.intro _ place))

theorem forceStep_like (like : Like L ev other) {v w : Value} (value : Value.Like L v w) :
    Eval.Like L (Value.Like L) (ev.forceStep v) (other.forceStep w) := by
  have whole := value
  cases value with
  | delayed fragment =>
    obtain ⟨env,node⟩ := fragment
    exact .bind (like.eval env node) like.force
  | unspecified | nil | boolean | char | string | symbol | number | pair | vector | closure
  | transformer | primitive | form => exact .pure whole

/-- Evaluators of one depth take like forms and values to like computations. -/
theorem ofFuel_like (fuel : Nat) : Like L (ofFuel fuel) (ofFuel fuel) := by
  induction fuel with
  | zero => exact ⟨fun _ _ => .throw .outOfFuel,fun _ => .throw .outOfFuel⟩
  | succ fuel ih => exact ⟨fun env => evalStep_like ih env,forceStep_like ih⟩

end Evaluator

/-! Whole programs. -/

def Program.Like (L : Likeness) (p q : Program) : Prop := Node.LikeAll L p.forms q.forms

theorem Store.Like.load {s t : Store} (like : Store.Like L s t) {p q : Program}
    (program : Program.Like L p q) : Gives L (Program.Like L) (s.load p) (t.load q) := by
  have labelled := Node.labelAll_like s.fresh program
  simp only [Store.load,← like.fresh]
  exact ⟨labelled.1,{ like with fresh := labelled.2 }⟩

namespace Program

/-- Texts with like tokens are like programs. -/
theorem ofTokens_like {text again : String} {name rename : Option String} {ts us : List Token}
    (first : Token.scan text name = .ok ts) (second : Token.scan again rename = .ok us)
    (tokens : List.Forall₂ (Token.Like L) ts us) :
    Reads L (Like L) (parse text name) (parse again rename) := by
  rw [parse,parse,first,second]
  exact .bind (.ok tokens) fun tokens => .bind (Node.ofTokens_like tokens) fun forms => .ok forms

theorem run_like (like : Evaluator.Like L ev other) {p q : Program} (program : Like L p q)
    (env : FrameId) : Eval.Like L (Value.Like L) (p.run ev env) (q.run other env) := by
  have body := like.body env program
  obtain ⟨forms⟩ := p
  obtain ⟨again⟩ := q
  cases program with
  | nil => exact .fail _
  | cons => exact body

end Program

/-- Like programs are evaluated alike. -/
theorem evaluate_like (like : Evaluator.Like L ev other) {text again : String}
    {name rename : Option String}
    (read : Reads L (Program.Like L) (Program.parse text name) (Program.parse again rename))
    (env : FrameId) :
    Eval.Like L (Value.Like L) (evaluate ev text name env) (evaluate other again rename env) := by
  have loaded : Eval.Like L (Program.Like L) (Program.read text name) (Program.read again rename) :=
    .bind (.ofSyntax read) fun program => .onStore fun store => store.load program
  exact .bind loaded fun program => .bind (Program.run_like like program env) like.force

/-- The initial state holds no places. -/
theorem State.initial_like : State.Like L .initial .initial := by
  have bindings : List.Forall₂ (fun x y => x.1 = y.1 ∧ Value.Like L x.2 y.2) Global.bindings
      Global.bindings := by
    refine List.forall₂_same.mpr fun binding member => ⟨rfl,?_⟩
    rw [Global.bindings,List.mem_append,List.mem_append] at member
    rcases member with (constant | form) | primitive
    · simp only [List.mem_cons,List.not_mem_nil,or_false] at constant
      rcases constant with rfl | rfl
      · exact .number L.pi
      · exact .nil
    · obtain ⟨f,-,rfl⟩ := List.mem_map.mp form
      exact .form f
    · obtain ⟨p,-,rfl⟩ := List.mem_map.mp primitive
      exact .primitive p
  exact ⟨.cons ⟨rfl,bindings⟩ .nil,.nil,.nil,rfl⟩

end MiniScheme
