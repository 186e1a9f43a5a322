import MiniScheme.Eval.Interpreter
import MiniScheme.Proofs.Datum.Written

/-! Reading written data back. The tokens of a readable datum become nodes that stand for it, so
the quoted text of a value evaluates to an equal value. -/
namespace MiniScheme

namespace Node

/-- A vector mark before the node of a vector. -/
def marked (isVector : Bool) (n : Node) : List Node := if isVector then [.sharp .nowhere,n] else [n]

theorem ofTokens_marked {isVector : Bool} {token : Token} {tokens : List Token} {n : Node}
    {ns : List Node} (head : ofToken token = .ok n) (tail : ofTokens tokens = .ok ns) :
    ofTokens (Token.marked isVector token ++ tokens) = .ok (marked isVector n ++ ns) := by
  have behind : ofTokens (token :: tokens) = .ok (n :: ns) := by
    rw [ofTokens,head,tail]
    rfl
  cases isVector with
  | false => exact behind
  | true =>
    change ofTokens (.atom .sharp "#" .nowhere :: token :: tokens) = _
    rw [ofTokens,behind]
    rfl

theorem ofTokens_dotted {token : Token} {n : Node} (found : ofToken token = .ok n) :
    ofTokens [.atom .dot "." .nowhere,token] = .ok [.dot .nowhere,n] := by
  rw [ofTokens,ofTokens,found]
  rfl

end Node

namespace Datum

/-- `Stands n d`: in a list, the node `n` gives the datum `d`, if `d` is a vector behind a mark. -/
inductive Stands : Node → Datum → Prop where
  | plain {n : Node} {d : Datum} : d.isVector = false → n.isDot = false → (∀ pos, n ≠ .sharp pos) →
      ofNode n = .ok d → Stands n d
  | vector {ns : List Node} {pos : Position} {ds : List Datum} :
      (∀ pos, ofItems ns pos = .ok ds) → Stands (.list ns pos) (.vector ds)

/-- `Ends ns d`: behind the items of a list, the nodes end it in `d`. -/
structure Ends (ns : List Node) (d : Datum) : Prop where
  dots : ∀ i, ns.findIdx? Node.isDot = some i → i + 2 = ns.length
  chain : ∀ pos, ofChain ns pos = .ok d

variable {n : Node} {ns : List Node} {d e : Datum}

theorem Stands.chain (stands : Stands n d) (rest : List Node) (pos : Position) :
    ofChain (Node.marked d.isVector n ++ rest) pos = (ofChain rest pos).map (pair d) := by
  cases stands with
  | plain other noDot noSharp found =>
    rw [other]
    change ofChain (n :: rest) pos = _
    rw [ofChain,found]
    · cases ofChain rest pos <;> rfl
    · rintro place last rfl
      contradiction
    · intro place nodes inner tail sharp
      exact absurd sharp (noSharp place)
    · exact noSharp
  | @vector ns place ds inside =>
    change ofChain (.sharp .nowhere :: .list ns place :: rest) pos = _
    rw [ofChain,inside]
    cases ofChain rest pos <;> rfl

theorem Stands.items (stands : Stands n d) (rest : List Node) (pos : Position) :
    ofItems (Node.marked d.isVector n ++ rest) pos = (ofItems rest pos).map (d :: ·) := by
  cases stands with
  | plain other noDot noSharp found =>
    rw [other]
    change ofItems (n :: rest) pos = _
    rw [ofItems,found]
    · cases ofItems rest pos <;> rfl
    · intro place nodes inner tail sharp
      exact absurd sharp (noSharp place)
    · exact noSharp
  | @vector ns place ds inside =>
    change ofItems (.sharp .nowhere :: .list ns place :: rest) pos = _
    rw [ofItems,inside]
    cases ofItems rest pos <;> rfl

theorem Stands.noDot (stands : Stands n d) :
    (Node.marked d.isVector n).findIdx? Node.isDot = none := by
  cases stands with
  | plain other noDot _ _ =>
    rw [other]
    simp [Node.marked,noDot]
  | vector inside => rfl

theorem Ends.nil : Ends [] .nil := ⟨by simp,fun _ => rfl⟩

theorem Ends.dotted (pos : Position) (found : ofNode n = .ok d) : Ends [.dot pos,n] d := by
  refine ⟨?_,fun _ => found⟩
  intro i first
  have zero : some 0 = some i := first
  cases zero
  rfl

theorem Ends.findIdx? (stands : Stands n d) (ns : List Node) :
    (Node.marked d.isVector n ++ ns).findIdx? Node.isDot =
      (ns.findIdx? Node.isDot).map (· + (Node.marked d.isVector n).length) := by
  rw [List.findIdx?_append,stands.noDot]
  rfl

theorem Ends.cons (stands : Stands n d) (ends : Ends ns e) :
    Ends (Node.marked d.isVector n ++ ns) (pair d e) := by
  refine ⟨?_,?_⟩
  · intro i first
    rw [findIdx? stands,Option.map_eq_some_iff] at first
    obtain ⟨j,found,rfl⟩ := first
    have place := ends.dots j found
    rw [List.length_append]
    omega
  · intro pos
    rw [stands.chain,ends.chain]
    rfl

/-- The list of an item and the nodes that end it. -/
theorem Ends.list (stands : Stands n d) (ends : Ends ns e) (pos : Position) :
    ofNode (.list (Node.marked d.isVector n ++ ns) pos) = .ok (pair d e) := by
  have whole := ends.cons stands
  have front : 0 < (Node.marked d.isVector n).length := by
    cases d.isVector <;> simp [Node.marked]
  have inPlace : dotsInPlace (Node.marked d.isVector n ++ ns) = true := by
    rw [dotsInPlace]
    split
    next => rfl
    next i first =>
      have place := whole.dots i first
      rw [findIdx? stands,Option.map_eq_some_iff] at first
      obtain ⟨j,_,rfl⟩ := first
      simp only [place,Bool.and_eq_true,decide_eq_true_eq,beq_self_eq_true,and_true]
      omega
  rw [ofNode,if_pos inPlace,whole.chain]

theorem isVector_bare (d : Datum) : d.bare.isVector = d.isVector := by cases d <;> rfl

theorem quoteKind_bare (d : Datum) : d.bare.quoteKind = d.quoteKind := by
  rw [quoteKind,quoteKind,isVector_bare]

/-- The literal of an atom gives back the atom. -/
theorem atom_node {d : Datum} {kind : AtomKind} {text : String} (readable : d.Readable)
    (atom : d.atom? = some (kind,text)) :
    ∃ n, Node.ofToken d.atomToken = .ok n ∧ n.isDot = false ∧ (∀ pos, n ≠ .sharp pos) ∧
      ofNode n = .ok d.bare := by
  cases d with
  | unspecified | nil | pair | vector => contradiction
  | boolean b => cases b <;> exact ⟨_,rfl,rfl,by simp,rfl⟩
  | char c =>
    refine ⟨.char c .nowhere,?_,rfl,by simp,rfl⟩
    simp [atomToken,atom?,Node.ofToken,Node.ofAtom]
  | string text label => exact ⟨_,rfl,rfl,by simp,rfl⟩
  | symbol name => exact ⟨_,rfl,rfl,by simp,rfl⟩
  | number n =>
    refine ⟨.number n .nowhere,?_,rfl,by simp,rfl⟩
    simp [atomToken,atom?,Node.ofToken,Node.ofAtom,Number.parse?_text readable]

mutual

/-- The token of a readable datum becomes a node that stands for it. -/
theorem token_stands (d : Datum) (readable : d.Readable) :
    ∃ n, Node.ofToken d.token = .ok n ∧ Stands n d.bare := by
  cases d with
  | unspecified => contradiction
  | nil => exact ⟨_,rfl,.plain rfl rfl (by simp) rfl⟩
  | pair head tail =>
    obtain ⟨n,first,stands⟩ := token_stands head readable.1
    obtain ⟨ns,rest,ends⟩ := tailTokens_ends tail readable.2.1 readable.2.2
    refine ⟨.list (Node.marked head.isVector n ++ ns) .nowhere,?_,.plain rfl rfl (by simp) ?_⟩
    · rw [token,Node.ofToken,Node.ofTokens_marked first rest]
      rfl
    · rw [← isVector_bare head]
      exact ends.list stands .nowhere
  | vector items =>
    obtain ⟨ns,nodes,inside⟩ := tokensAll_items items readable
    refine ⟨.list ns .nowhere,?_,.vector inside⟩
    rw [token,Node.ofToken,nodes]
    rfl
  | boolean | char | string | symbol | number =>
    obtain ⟨n,found,noDot,noSharp,datum⟩ := atom_node readable rfl
    exact ⟨n,found,.plain rfl noDot noSharp datum⟩

theorem tailTokens_ends (d : Datum) (readable : d.Readable) (noVector : d.isVector = false) :
    ∃ ns, Node.ofTokens d.tailTokens = .ok ns ∧ Ends ns d.bare := by
  cases d with
  | unspecified | vector => contradiction
  | nil => exact ⟨[],rfl,.nil⟩
  | pair head tail =>
    obtain ⟨n,first,stands⟩ := token_stands head readable.1
    obtain ⟨ns,rest,ends⟩ := tailTokens_ends tail readable.2.1 readable.2.2
    refine ⟨_,Node.ofTokens_marked first rest,?_⟩
    rw [← isVector_bare head]
    exact ends.cons stands
  | boolean | char | string | symbol | number =>
    obtain ⟨n,found,_,_,datum⟩ := atom_node readable rfl
    exact ⟨[.dot .nowhere,n],Node.ofTokens_dotted found,.dotted _ datum⟩

theorem tokensAll_items (ds : List Datum) (readable : ReadableAll ds) :
    ∃ ns, Node.ofTokens (tokensAll ds) = .ok ns ∧
      ∀ pos, ofItems ns pos = .ok (relabelAll (fun _ => 0) ds) := by
  cases ds with
  | nil => exact ⟨[],rfl,fun _ => rfl⟩
  | cons d ds =>
    obtain ⟨n,first,stands⟩ := token_stands d readable.1
    obtain ⟨ns,rest,items⟩ := tokensAll_items ds readable.2
    refine ⟨_,Node.ofTokens_marked first rest,?_⟩
    intro pos
    rw [← isVector_bare d,stands.items,items]
    rfl

end

/-- A quote before a node like one that stands for a datum gives the datum, up to labels. -/
theorem Stands.quote {m : Node} (stands : Stands n d) (same : m.bare = n.bare) (ev : Evaluator)
    (pos : Position) (env : FrameId) :
    ∃ e, e.bare = d.bare ∧ ev.evalStep (.quote d.quoteKind m pos) env = Eval.quote (.ok e) := by
  cases stands with
  | plain other _ _ found =>
    obtain ⟨e,read,labels⟩ := ofNode_bare same found
    refine ⟨e,labels,?_⟩
    rw [quoteKind,other,← read]
    rfl
  | @vector ns place ds inside =>
    obtain ⟨ms,q,rfl⟩ := Node.mapMarks_eq_list same
    have items : Node.bareAll ms = Node.bareAll ns := (Node.list.inj same).1
    obtain ⟨es,read,labels⟩ := ofItems_bare items (inside pos) pos
    refine ⟨.vector es,labels,?_⟩
    change Eval.quote (Datum.vector <$> ofItems ms pos) = _
    rw [read]
    rfl

/-- The quoted text of a readable datum is a program of one quote. -/
theorem parse_quoted {d : Datum} (readable : d.Readable) (source : Option String) :
    ∃ n m pos, Program.parse ("'" ++ d.tree.write .alone) source = .ok ⟨[.quote d.quoteKind m pos]⟩ ∧
      Stands n d.bare ∧ m.bare = n.bare := by
  obtain ⟨token,scanned,places⟩ := scan_quoted readable source
  obtain ⟨n,found,stands⟩ := token_stands d readable
  have quote : Node.ofToken d.quoted = .ok (.quote d.quoteKind n .nowhere) := by
    rw [quoted,Node.ofToken,found]
    rfl
  obtain ⟨q,read,same⟩ := Node.ofToken_bare places quote
  obtain ⟨m,pos,rfl⟩ := Node.mapMarks_eq_quote same
  refine ⟨n,m,pos,?_,stands,(Node.quote.inj same).2.1⟩
  have nodes : Node.ofTokens [token] = .ok [.quote d.quoteKind m pos] := by
    rw [Node.ofTokens,read]
    rfl
  simp [Program.parse,scanned,nodes,Except.bind,bind,pure,Except.pure]

end Datum

namespace Evaluator

theorem force_built (fuel : Nat) (s : Store) (d : Datum) :
    (ofFuel (fuel + 1)).force (s.build d).1 = pure (s.build d).1 := by
  cases d <;> rfl

end Evaluator

/-- A program of one quote builds its datum. -/
theorem evaluate_quote {text : String} {source : Option String} {kind : QuoteKind} {m : Node}
    {pos : Position} (parsed : Program.parse text source = .ok ⟨[.quote kind m pos]⟩)
    {fuel : Nat} {env : FrameId} {state : State} {e : Datum}
    (quoted : (Evaluator.ofFuel fuel).evalStep (.quote kind (m.label state.store.fresh).1 pos) env =
      Eval.quote (.ok e)) :
    ∃ fresh, evaluate (.ofFuel (fuel + 1)) text source env state =
      .ok ({ state.store with fresh }.build e).1
        ⟨({ state.store with fresh }.build e).2,state.tracers⟩ := by
  refine ⟨(m.label state.store.fresh).2,?_⟩
  obtain ⟨store,tracers⟩ := state
  have read : Program.read text source ⟨store,tracers⟩ =
      .ok ⟨[.quote kind (m.label store.fresh).1 pos]⟩
        ⟨{ store with fresh := (m.label store.fresh).2 },tracers⟩ := by
    rw [Program.read,parsed]
    rfl
  have run : Program.run (.ofFuel (fuel + 1)) ⟨[.quote kind (m.label store.fresh).1 pos]⟩ env =
      Eval.quote (.ok e) := quoted
  have built (s : Store) : Eval.quote (.ok e) ⟨s,tracers⟩ =
      .ok (s.build e).1 ⟨(s.build e).2,tracers⟩ := rfl
  simp only [evaluate,bind,EStateM.bind,read,run,built,Evaluator.force_built]
  rfl

/-- Reading undoes writing. The quoted text of a value that holds a readable datum evaluates, in any
frame and any state, to an equal value that holds the same datum, and no cell is changed for it. -/
theorem evaluate_quoted_text {state : State} {v : Value} {d : Datum}
    (holds : state.store.Unfolds v d.tree) (readable : d.Readable) (fuel : Nat)
    (source : Option String) (env : FrameId) :
    ∃ w next, evaluate (.ofFuel (fuel + 1)) ("'" ++ state.store.text v) source env state = .ok w next ∧
      next.store.same v w = true ∧ (∃ e : Datum, next.store.Unfolds w e.tree ∧ e.bare = d.bare) ∧
      state.store.Extends next.store := by
  obtain ⟨n,m,pos,parsed,stands,same⟩ := Datum.parse_quoted readable source
  rw [← holds.text_eq] at parsed
  have labelled : (m.label state.store.fresh).1.bare = n.bare := (m.bare_label _).trans same
  obtain ⟨e,labels,quoted⟩ := stands.quote labelled (.ofFuel fuel) pos env
  rw [d.bare_bare] at labels
  rw [d.quoteKind_bare] at quoted
  obtain ⟨fresh,result⟩ := evaluate_quote parsed quoted
  have grown : state.store.Extends ({ state.store with fresh }.build e).2 :=
    (Store.fresh_extends ..).trans (Store.build_extends ..)
  have built : ({ state.store with fresh }.build e).2.Unfolds _ e.tree := Store.build_unfolds e _
  have equal := Store.same_of_bare readable labels.symm (holds.extend grown) built
  exact ⟨_,_,result,equal,⟨e,built,labels⟩,grown⟩

/-- A vector with the same dotted pair in two places. -/
theorem evaluate_quoted_text_shared :
    ∃ w next, evaluate (.ofFuel 1) "'#((1+ . \"q\\\"\") (1+ . \"q\\\"\") -5)" none ⟨0⟩
      ⟨⟨#[],#[⟨.symbol "1+",.string "q\"" 0⟩],#[#[.pair ⟨0⟩,.pair ⟨0⟩,.number (.integer (-5))]],1⟩,
        .none⟩ = .ok w next ∧ next.store.same (.vector ⟨0⟩) w = true := by
  let state : State := ⟨⟨#[],#[⟨.symbol "1+",.string "q\"" 0⟩],
    #[#[.pair ⟨0⟩,.pair ⟨0⟩,.number (.integer (-5))]],1⟩,.none⟩
  let pair : Datum := .pair (.symbol "1+") (.string "q\"" 0)
  have shared : state.store.Unfolds (.pair ⟨0⟩) pair.tree := .pair rfl (.leaf rfl) (.leaf rfl)
  have holds : state.store.Unfolds (.vector ⟨0⟩) (Datum.vector [pair,pair,.number (.integer (-5))]).tree :=
    .vector rfl (.cons shared (.cons shared (.cons (.leaf rfl) .nil)))
  have printable : ∀ c ∈ "q\"".toList, Text.isPrintable c = true := List.all_eq_true.mp rfl
  have readable : pair.Readable := ⟨⟨none,⟨1,1,none⟩,rfl⟩,printable,rfl⟩
  have number : InWord (-5) := by decide
  have written : state.store.text (.vector ⟨0⟩) = "#((1+ . \"q\\\"\") (1+ . \"q\\\"\") -5)" := by decide
  obtain ⟨w,next,result,equal,-⟩ :=
    evaluate_quoted_text holds ⟨readable,readable,number,trivial⟩ 0 none ⟨0⟩
  rw [written] at result
  exact ⟨w,next,result,equal⟩

end MiniScheme
