import MiniScheme.Eval.Global
import MiniScheme.Proofs.Datum.Reading
import MiniScheme.Proofs.Eval.Fuel
import MiniScheme.Proofs.Pattern.Expansion
import MiniScheme.Proofs.Store.Forest
import MiniScheme.Proofs.Token.Nesting

/-! Two ways to quote. A datum behind a quote mark and the same datum in a quotation form are read to
like nodes, so they come to equal values or to the same fault. A vector is the exception: its mark and
its list are one token behind a quote mark, but two operands of the form. -/
namespace MiniScheme

/-- Results that become equal when places and labels are changed were both good or both bad. -/
theorem SyntaxError.agree_of_moved {α β : Type} {f : Position → Position} {g : α → β}
    {x y : Except SyntaxError α}
    (moved : (x.map g).mapError (mapPos f) = (y.map g).mapError (mapPos f)) :
    (∃ a b, x = .ok a ∧ y = .ok b ∧ g a = g b) ∨
      ∃ d e, x = .error d ∧ y = .error e ∧ d.fault = e.fault := by
  cases x with
  | ok a =>
    obtain ⟨b,rfl,same⟩ := ok_of_moved moved.symm
    exact .inl ⟨a,b,rfl,rfl,same.symm⟩
  | error d =>
    cases y with
    | ok b => contradiction
    | error e =>
      have fault : (d.mapPos f).fault = (e.mapPos f).fault :=
        congrArg SyntaxError.fault (Except.error.inj moved)
      exact .inr ⟨d,e,rfl,rfl,fault⟩

def QuoteKind.isVector : QuoteKind → Bool
  | list => false
  | vector => true

namespace Node

theorem ofToken_agree {t u : Token} (same : t.bare = u.bare) :
    (∃ n m, ofToken t = .ok n ∧ ofToken u = .ok m ∧ n.bare = m.bare) ∨
      ∃ d e, ofToken t = .error d ∧ ofToken u = .error e ∧ d.fault = e.fault := by
  have left : ofToken t.bare = ((ofToken t).map bare).mapError _ := ofToken_mapPos rfl t
  have right : ofToken u.bare = ((ofToken u).map bare).mapError _ := ofToken_mapPos rfl u
  rw [same] at left
  exact SyntaxError.agree_of_moved (left.symm.trans right)

theorem bare_eq_symbol {n : Node} {name : String} {place : Position}
    (same : n.bare = .symbol name place) : ∃ pos, n = .symbol name pos := by
  cases n <;> cases same
  exact ⟨_,rfl⟩

theorem bare_eq_list {n : Node} {items : List Node} {place : Position}
    (same : n.bare = .list items place) : ∃ nodes pos, n = .list nodes pos ∧ bareAll nodes = items := by
  cases n with
  | list nodes pos => exact ⟨nodes,pos,rfl,(Node.list.inj same).1⟩
  | _ => contradiction

theorem bare_eq_quote {n inner : Node} {kind : QuoteKind} {place : Position}
    (same : n.bare = .quote kind inner place) :
    ∃ datum pos, n = .quote kind datum pos ∧ datum.bare = inner := by
  obtain ⟨datum,pos,rfl⟩ := mapMarks_eq_quote same
  exact ⟨datum,pos,rfl,(Node.quote.inj same).2.1⟩

theorem bareAll_eq_cons {ns rest : List Node} {first : Node} (same : bareAll ns = first :: rest) :
    ∃ n more, ns = n :: more ∧ n.bare = first ∧ bareAll more = rest := by
  cases ns with
  | nil => contradiction
  | cons n more => exact ⟨n,more,rfl,(List.cons.inj same).1,(List.cons.inj same).2⟩

theorem bareAll_eq_nil {ns : List Node} (same : bareAll ns = []) : ns = [] := by
  cases ns with
  | nil => rfl
  | cons n more => contradiction

theorem bareAll_marked {n m : Node} (same : n.bare = m.bare) (isVector : Bool) :
    bareAll (marked isVector n) = bareAll (marked isVector m) := by
  cases isVector with
  | false => exact congrArg ([·]) same
  | true => exact congrArg (fun n => [Node.sharp .nowhere,n]) same

end Node

namespace Datum

/-- The datum of a quote mark before a node. -/
def ofQuoted (kind : QuoteKind) (inner : Node) (pos : Position) : Except SyntaxError Datum :=
  match kind with
  | .list => ofNode inner
  | .vector => ofVectorNode inner pos

theorem ofNode_agree {n m : Node} (same : n.bare = m.bare) :
    (∃ d e, ofNode n = .ok d ∧ ofNode m = .ok e ∧ d.bare = e.bare) ∨
      ∃ d e, ofNode n = .error d ∧ ofNode m = .error e ∧ d.fault = e.fault := by
  have left : ofNode n.bare = _ := of_mapMarks.1 n
  have right : ofNode m.bare = _ := of_mapMarks.1 m
  rw [same] at left
  exact SyntaxError.agree_of_moved (left.symm.trans right)

end Datum

/-- `Matches s v t w`: the value `v` of one store and `w` of another are equal in structure. They hold
the same datum, and in a store with the cells of both they are found equal if every number of the
datum is the same as itself. -/
def Store.Matches (s : Store) (v : Value) (t : Store) (w : Value) : Prop :=
  ∃ d e : Datum, s.Unfolds v d.tree ∧ t.Unfolds w e.tree ∧ d.bare = e.bare ∧
    (d.Settled → ∀ u : Store, s.Extends u → t.Extends u → u.same v w = true)

theorem Store.Matches.of_bare {s t : Store} {v w : Value} {d e : Datum} (left : s.Unfolds v d.tree)
    (right : t.Unfolds w e.tree) (same : d.bare = e.bare) : s.Matches v t w := by
  refine ⟨d,e,left,right,same,?_⟩
  intro settled u first second
  exact same_of_settled settled same (left.extend first) (right.extend second)

theorem RuntimeError.passThrough_fault (e : RuntimeError) (pos : Position) (env : FrameId) :
    (e.passThrough pos env).fault = e.fault := by
  rw [passThrough]
  split <;> rfl

namespace Eval

/-- Outcomes that are equal up to places: values of the same structure, or failures with the same
fault. -/
inductive Alike : Outcome Value → Outcome Value → Prop where
  | value {v w : Value} {s t : State} : s.store.Matches v t.store w → Alike (.ok v s) (.ok w t)
  | reading {e f : SyntaxError} {s t : State} : e.fault = f.fault →
      Alike (.error (.reading e) s) (.error (.reading f) t)
  | running {e f : RuntimeError} {s t : State} : e.fault = f.fault →
      Alike (.error (.running e) s) (.error (.running f) t)

theorem quote_ok (d : Datum) (state : State) :
    Eval.quote (.ok d) state =
      .ok (state.store.build d).1 ⟨(state.store.build d).2,state.tracers⟩ := rfl

theorem quote_error (e : SyntaxError) (state : State) :
    Eval.quote (.error e) state = .error (.reading e) state := rfl

/-- Nodes that differ in places and labels only are quoted alike. -/
theorem quote_alike {n m : Node} (same : n.bare = m.bare) (state later : State) :
    Alike (Eval.quote (Datum.ofNode n) state) (Eval.quote (Datum.ofNode m) later) := by
  obtain ⟨d,e,left,right,labels⟩ | ⟨d,e,left,right,fault⟩ := Datum.ofNode_agree same
  · rw [left,right,quote_ok,quote_ok]
    exact .value (.of_bare (Store.build_unfolds ..) (Store.build_unfolds ..) labels)
  · rw [left,right]
    exact .reading fault

/-- What goes wrong with a quote is found in reading. -/
theorem quote_not_running (datum : Except SyntaxError Datum) (e : RuntimeError) (state later : State) :
    ¬ Alike (Eval.quote datum state) (.error (.running e) later) := by
  intro alike
  cases datum with
  | ok d =>
    rw [quote_ok] at alike
    nomatch alike
  | error d =>
    rw [quote_error] at alike
    nomatch alike

theorem traced_quote (pos : Position) (env : FrameId) (datum : Except SyntaxError Datum) :
    Eval.traced pos env (Eval.quote datum) = Eval.quote datum := by
  cases datum <;> rfl

/-- What was quoted has nothing to force. -/
theorem quote_forced (fuel : Nat) (datum : Except SyntaxError Datum) :
    (Eval.quote datum >>= (Evaluator.ofFuel (fuel + 1)).force) = Eval.quote datum := by
  cases datum with
  | error e => rfl
  | ok d =>
    funext state
    simp only [bind,EStateM.bind,quote_ok,Evaluator.force_built]
    rfl

end Eval

section Programs

variable {text : String} {source : Option String} {n : Node} {state : State} {env : FrameId}

/-- The state in which the only form of a program is evaluated, with its strings labelled. -/
def State.loaded (state : State) (n : Node) : State :=
  ⟨{ state.store with fresh := (n.label state.store.fresh).2 },state.tracers⟩

theorem State.lookup_loaded (state : State) (n : Node) (env : FrameId) (name : String) :
    (state.loaded n).store.lookup env name = state.store.lookup env name :=
  Store.lookup_congr (by intro f; rfl) (by intro g; rfl) env

theorem evaluate_single (parsed : Program.parse text source = .ok ⟨[n]⟩) (ev : Evaluator)
    (env : FrameId) (state : State) :
    evaluate ev text source env state =
      (ev.eval (n.label state.store.fresh).1 env >>= ev.force) (state.loaded n) := by
  have read : Program.read text source state = .ok ⟨[(n.label state.store.fresh).1]⟩ (state.loaded n) := by
    rw [Program.read,parsed]
    rfl
  simp only [evaluate,bind,EStateM.bind,read]
  rfl

theorem evaluate_unread {e : SyntaxError} (unread : Program.parse text source = .error e)
    (ev : Evaluator) : evaluate ev text source env state = .error (.reading e) state := by
  have read : Program.read text source state = .error (.reading e) state := by
    rw [Program.read,unread]
    rfl
  simp only [evaluate,bind,EStateM.bind,read]

theorem parse_single {token : Token} (scanned : Token.scan text source = .ok [token]) :
    Program.parse text source = (Node.ofToken token).map fun n => ⟨[n]⟩ := by
  cases built : Node.ofToken token with
  | error | ok =>
    simp [Program.parse,scanned,Node.ofTokens,built,bind,Except.bind,pure,Except.pure,Except.map]

/-- The form of a quotation with the nodes that it quotes. -/
def Node.quotation (operator pos : Position) (args : List Node) : Node :=
  .list (.symbol SpecialForm.quotation.name operator :: args) pos

theorem Node.bare_eq_quotation {args : List Node} {operator pos : Position}
    (same : n.bare = (Node.quotation operator pos args).bare) :
    ∃ first place nodes, n = Node.quotation first place nodes ∧ bareAll nodes = bareAll args := by
  obtain ⟨items,place,rfl,inside⟩ := bare_eq_list same
  obtain ⟨first,nodes,rfl,name,rest⟩ := bareAll_eq_cons inside
  obtain ⟨spot,rfl⟩ := bare_eq_symbol name
  exact ⟨spot,place,nodes,rfl,rest⟩

/-- A quotation form gets its operands as they stand. -/
theorem Evaluator.eval_quotation {args : List Node}
    (found : state.store.lookup env SpecialForm.quotation.name = some (.form .quotation))
    (collected : Operand.collect env args state = .ok (args.map .node) state) (fuel : Nat)
    (operator pos : Position) :
    (ofFuel (fuel + 2)).eval (Node.quotation operator pos args) env state =
      Eval.traced pos env (SpecialForm.runQuotation (args.map .node)) state :=
  eval_form found collected fuel operator pos

end Programs

/-- The text of a datum in a quotation form. -/
def quotationText (text : String) : String := "(quote " ++ text ++ ")"

section Forms

variable {text : String} {token inner : Token} {tokens : List Token} {kind : QuoteKind} {pos : Position}
  {env : FrameId} {later : State}

/-- The token of a quotation form, without places. -/
def Token.quotation (tokens : List Token) : Token :=
  .list (.atom .symbol SpecialForm.quotation.name .nowhere :: tokens) .nowhere

theorem scan_quotation (spells : Spells text.toList tokens) (source : Option String) :
    ∃ token, Token.scan (quotationText text) source = .ok [token] ∧
      token.bare = (Token.quotation tokens).bare := by
  have name : Spells "quote".toList [.atom .symbol "quote" .nowhere] :=
    Spells.atom (by decide : AtomKind.symbol.admits "quote" = true) fun _ => rfl
  have spelled : (quotationText text).toList = '(' :: ("quote".toList ++ ' ' :: text.toList) ++ [')'] := by
    simp [quotationText]
  have whole := (name.append spells).list
  rw [← spelled] at whole
  obtain ⟨found,scanned,places⟩ := whole.scan source
  obtain ⟨token,rfl,same⟩ := List.map_eq_singleton_iff.mp places
  exact ⟨token,scanned,same⟩

/-- The tokens that a quote mark takes up become the node behind it, and the mark of a vector. -/
theorem Node.ofTokens_quotes (quotes : Token.Quotes kind inner.bare tokens) :
    (∃ n ns, ofToken inner = .ok n ∧ ofTokens tokens = .ok ns ∧
      bareAll ns = bareAll (marked kind.isVector n)) ∨
      ∃ d e, ofToken inner = .error d ∧ ofTokens tokens = .error e ∧ d.fault = e.fault := by
  have places : inner.bare = inner.bare.bare := (Token.bare_mapPos _ inner).symm
  cases quotes with
  | datum plain =>
    obtain ⟨n,m,left,right,same⟩ | ⟨d,e,left,right,fault⟩ := ofToken_agree places
    · refine .inl ⟨n,[m],left,by rw [ofTokens,right]; rfl,?_⟩
      exact bareAll_marked same.symm false
    · exact .inr ⟨d,e,left,by rw [ofTokens,right]; rfl,fault⟩
  | @vector mark _ sharp =>
    obtain ⟨text,place,rfl⟩ : ∃ text place, mark = .atom .sharp text place := by
      cases mark with
      | atom kind text place => cases kind <;> first | contradiction | exact ⟨text,place,rfl⟩
      | list | quote => contradiction
    obtain ⟨n,m,left,right,same⟩ | ⟨d,e,left,right,fault⟩ := ofToken_agree places
    · refine .inl ⟨n,[.sharp place,m],left,by rw [ofTokens,ofTokens,right]; rfl,?_⟩
      exact bareAll_marked same.symm true
    · exact .inr ⟨d,e,left,by rw [ofTokens,ofTokens,right]; rfl,fault⟩

theorem Node.ofToken_quotation (tokens : List Token) :
    ofToken (.quotation tokens) = (ofTokens tokens).map (Node.quotation .nowhere .nowhere) := by
  rw [Token.quotation,ofToken,ofTokens]
  cases ofTokens tokens <;> rfl

theorem Node.bareAll_eq_marked {ns : List Node} {n : Node} {isVector : Bool}
    (same : bareAll ns = bareAll (marked isVector n)) :
    ∃ m, m.bare = n.bare ∧ (isVector = false ∧ ns = [m] ∨ isVector = true ∧ ∃ pos, ns = [.sharp pos,m]) := by
  cases isVector with
  | false =>
    obtain ⟨m,rest,rfl,inner,none⟩ := bareAll_eq_cons same
    obtain rfl := bareAll_eq_nil none
    exact ⟨m,inner,.inl ⟨rfl,rfl⟩⟩
  | true =>
    obtain ⟨mark,more,rfl,sharp,others⟩ := bareAll_eq_cons same
    obtain ⟨m,rest,rfl,inner,none⟩ := bareAll_eq_cons others
    obtain rfl := bareAll_eq_nil none
    obtain ⟨pos,rfl⟩ : ∃ pos, mark = .sharp pos := by
      cases mark <;> cases sharp
      exact ⟨_,rfl⟩
    exact ⟨m,inner,.inr ⟨rfl,pos,rfl⟩⟩

/-- The nodes of a datum are collected as they stand, whatever the datum is. -/
theorem Operand.collect_marked {ns : List Node} {n : Node} {isVector : Bool} {state : State}
    (same : Node.bareAll ns = Node.bareAll (Node.marked isVector n)) :
    collect env ns state = .ok (ns.map .node) state := by
  have single (m : Node) : collect env [m] state = .ok [.node m] state := by cases m <;> rfl
  obtain ⟨m,-,⟨-,rfl⟩ | ⟨-,pos,rfl⟩⟩ := Node.bareAll_eq_marked same
  · exact single m
  · simp only [collect,bind,EStateM.bind,single]
    rfl

/-- A quotation form with the text of a datum runs on the nodes of the datum, unless they cannot be
read. -/
theorem evaluate_quotation (spells : Spells text.toList tokens)
    (quotes : Token.Quotes kind inner.bare tokens)
    (found : later.store.lookup env SpecialForm.quotation.name = some (.form .quotation))
    (source : Option String) (fuel : Nat) :
    (∃ n ns pos next, Node.ofToken inner = .ok n ∧
      Node.bareAll ns = Node.bareAll (Node.marked kind.isVector n) ∧
      evaluate (.ofFuel (fuel + 2)) (quotationText text) source env later =
        (Eval.traced pos env (SpecialForm.runQuotation (ns.map .node)) >>=
          (Evaluator.ofFuel (fuel + 2)).force) next) ∨
      ∃ d e, Node.ofToken inner = .error d ∧ d.fault = e.fault ∧
        evaluate (.ofFuel (fuel + 2)) (quotationText text) source env later =
          .error (.reading e) later := by
  obtain ⟨token,scanned,places⟩ := scan_quotation spells source
  have parsed := parse_single scanned
  obtain ⟨n,ns,read,nodes,same⟩ | ⟨d,e,unread,nodes,fault⟩ := Node.ofTokens_quotes quotes
  · have whole : Node.ofToken (.quotation tokens) = .ok (.quotation .nowhere .nowhere ns) := by
      rw [Node.ofToken_quotation,nodes]
      rfl
    obtain ⟨m,read',like⟩ := Node.ofToken_bare places whole
    rw [read'] at parsed
    have labelled := (m.bare_label later.store.fresh).trans like
    obtain ⟨operator,pos,args,form,inside⟩ := Node.bare_eq_quotation labelled
    have run := evaluate_single parsed (.ofFuel (fuel + 2)) env later
    have loaded := (later.lookup_loaded m env SpecialForm.quotation.name).trans found
    have ran := Evaluator.eval_quotation loaded (Operand.collect_marked (inside.trans same)) fuel operator pos
    rw [form] at run
    refine .inl ⟨n,args,pos,later.loaded m,read,inside.trans same,run.trans ?_⟩
    simp only [bind,EStateM.bind,ran]
  · have whole : Node.ofToken (.quotation tokens) = .error e := by
      rw [Node.ofToken_quotation,nodes]
      rfl
    obtain ⟨_,_,_,ok,_⟩ | ⟨f,_,left,right,again⟩ := Node.ofToken_agree places
    · rw [whole] at ok
      contradiction
    · rw [left] at parsed
      cases whole.symm.trans right
      exact .inr ⟨d,f,unread,fault.trans again.symm,evaluate_unread parsed _⟩

/-- A quote mark as a whole program. -/
theorem evaluate_quoteMark {source : Option String} {n : Node}
    (single : Token.scan text source = .ok [.quote kind inner pos])
    (read : Node.ofToken inner = .ok n) (fuel : Nat) (env : FrameId) (state : State) :
    ∃ m next, m.bare = n.bare ∧ state.store.Extends next.store ∧
      evaluate (.ofFuel (fuel + 1)) text source env state = Eval.quote (Datum.ofQuoted kind m pos) next := by
  have parsed : Program.parse text source = .ok ⟨[.quote kind n pos]⟩ := by
    rw [parse_single single,Node.ofToken,read]
    rfl
  refine ⟨(n.label state.store.fresh).1,state.loaded (.quote kind n pos),n.bare_label _,
    Store.fresh_extends ..,?_⟩
  have step : (Evaluator.ofFuel (fuel + 1)).eval ((Node.quote kind n pos).label state.store.fresh).1 env =
      Eval.quote (Datum.ofQuoted kind (n.label state.store.fresh).1 pos) := by
    cases kind <;> rfl
  rw [evaluate_single parsed,step,Eval.quote_forced]

/-- The two ways to quote agree on every text, good or bad, except on a vector, which the form takes
for two operands. -/
theorem quotations_agree {state : State} {source rename : Option String} {token : Token}
    (plain : ';' ∉ text.toList) (single : Token.scan ("'" ++ text) source = .ok [token])
    (found : later.store.lookup env SpecialForm.quotation.name = some (.form .quotation))
    (fuel : Nat) :
    ∃ kind inner pos, token = .quote kind inner pos ∧
      (Eval.Alike (evaluate (.ofFuel (fuel + 2)) ("'" ++ text) source env state)
          (evaluate (.ofFuel (fuel + 2)) (quotationText text) rename env later) ↔
        kind = .list ∨ ∃ e, Node.ofToken inner = .error e) ∧
      (kind = .vector → ∀ n, Node.ofToken inner = .ok n → ∃ e next,
        evaluate (.ofFuel (fuel + 2)) (quotationText text) rename env later = .error (.running e) next ∧
          e.fault = .tooManyArgs 1 2) := by
  obtain ⟨kind,inner,pos,tokens,rfl,quotes,spells⟩ := Token.spells_of_quoted plain single
  refine ⟨kind,inner,pos,rfl,?_⟩
  obtain ⟨n,ns,place,next,read,nodes,form⟩ | ⟨d,e,unread,fault,form⟩ :=
    evaluate_quotation spells quotes found rename fuel
  · obtain ⟨m,start,like,-,mark⟩ := evaluate_quoteMark single read (fuel + 1) env state
    obtain ⟨other,same,shape⟩ := Node.bareAll_eq_marked nodes
    rw [form,mark]
    cases kind with
    | list =>
      obtain ⟨-,rfl⟩ | ⟨vector,-⟩ := shape
      · have quoted : Eval.traced place env (SpecialForm.runQuotation ([other].map .node)) =
            Eval.quote (Datum.ofNode other) := Eval.traced_quote ..
        rw [quoted,Eval.quote_forced]
        refine ⟨iff_of_true (Eval.quote_alike (like.trans same.symm) ..) (.inl rfl),?_⟩
        intro kind
        contradiction
      · contradiction
    | vector =>
      obtain ⟨plain,-⟩ | ⟨-,mark,rfl⟩ := shape
      · contradiction
      · have failed : Eval.traced place env (SpecialForm.runQuotation ([.sharp mark,other].map .node)) next =
            .error (.running ((RuntimeError.ofFault (.tooManyArgs 1 2)).passThrough place env)) next := rfl
        simp only [bind,EStateM.bind,failed]
        refine ⟨iff_of_false (Eval.quote_not_running _ _ _ _) ?_,?_⟩
        · rintro (kind | ⟨e,unread⟩)
          · contradiction
          · rw [read] at unread
            contradiction
        · intro _ _ _
          exact ⟨_,next,rfl,RuntimeError.passThrough_fault ..⟩
  · have parsed : Program.parse ("'" ++ text) source = .error d := by
      rw [parse_single single,Node.ofToken,unread]
      rfl
    rw [evaluate_unread parsed,form]
    refine ⟨iff_of_true (.reading fault) (.inr ⟨d,unread⟩),?_⟩
    intro _ n read
    rw [unread] at read
    contradiction

/-- A dotted list with a vector in it is quoted alike. -/
theorem quotations_agree_dotted :
    Eval.Alike (evaluate (.ofFuel ampleFuel) "'(a #(1) . \"b\")" none Global.frame .initial)
      (evaluate (.ofFuel ampleFuel) "(quote (a #(1) . \"b\"))" none Global.frame .initial) := by
  have plain : ';' ∉ "(a #(1) . \"b\")".toList := by decide
  have single : Token.scan "'(a #(1) . \"b\")" none = .ok [.quote .list (.list
      [.atom .symbol "a" ⟨1,3,none⟩,.atom .sharp "#" ⟨1,5,none⟩,
        .list [.atom .number "1" ⟨1,7,none⟩] ⟨1,6,none⟩,.atom .dot "." ⟨1,10,none⟩,
        .atom .string "b" ⟨1,12,none⟩] ⟨1,2,none⟩) ⟨1,1,none⟩] := rfl
  have found : State.initial.store.lookup Global.frame SpecialForm.quotation.name =
      some (.form .quotation) := rfl
  obtain ⟨kind,inner,pos,shape,agree,-⟩ := quotations_agree plain single found 999998
  cases shape
  exact agree.mpr (.inl rfl)

/-- A vector behind a quote mark is built, and refused by the form. -/
theorem quotations_differ :
    ¬ Eval.Alike (evaluate (.ofFuel ampleFuel) "'#(1 2)" none Global.frame .initial)
      (evaluate (.ofFuel ampleFuel) "(quote #(1 2))" none Global.frame .initial) := by
  have mark : ∃ next, evaluate (.ofFuel ampleFuel) "'#(1 2)" none Global.frame .initial =
      .ok (.vector ⟨0⟩) next := ⟨_,rfl⟩
  have form : ∃ e next, evaluate (.ofFuel ampleFuel) "(quote #(1 2))" none Global.frame .initial =
      .error (.running e) next := ⟨_,_,rfl⟩
  obtain ⟨_,mark⟩ := mark
  obtain ⟨_,_,form⟩ := form
  rw [mark,form]
  intro alike
  nomatch alike

end Forms
end MiniScheme
