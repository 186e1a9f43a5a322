import MiniScheme.Proofs.Datum.Quoting

/-! Dotted data. A datum behind the dot of a quoted list is the tail of the list, whatever it is: an
atom, a list that goes on in the same chain, a quotation. Only a vector cannot stand there, because
its mark and its list count as two. -/
namespace MiniScheme

theorem SyntaxError.ok_of_bind {α β : Type} {x : Except SyntaxError α} {f : α → Except SyntaxError β}
    {b : β} (result : (x >>= f) = .ok b) : ∃ a, x = .ok a ∧ f a = .ok b := by
  cases x with
  | ok a => exact ⟨a,rfl,result⟩
  | error e => contradiction

namespace Node

theorem ofTokens_append {ts us : List Token} {ns ms : List Node} (first : ofTokens ts = .ok ns)
    (second : ofTokens us = .ok ms) : ofTokens (ts ++ us) = .ok (ns ++ ms) := by
  induction ts generalizing ns with
  | nil =>
    cases first
    exact second
  | cons t ts ih =>
    rw [ofTokens] at first
    obtain ⟨n,token,after⟩ := SyntaxError.ok_of_bind first
    obtain ⟨rest,tokens,same⟩ := SyntaxError.ok_of_bind after
    cases same
    rw [List.cons_append,ofTokens,token,ih tokens]
    rfl

theorem bareAll_append (ns ms : List Node) : bareAll (ns ++ ms) = bareAll ns ++ bareAll ms := by
  simp only [bareAll,mapMarksAll_eq_map,List.map_append]

end Node

namespace Datum

variable {n : Node} {d e : Datum} {kind : QuoteKind} {pos : Position}

/-- No node by itself denotes a vector. -/
theorem ofNode_not_vector (found : ofNode n = .ok d) : d.isVector = false := by
  cases n with
  | symbol | string | char | boolean | number => cases found; rfl
  | dot | sharp => contradiction
  | quote kind inner pos =>
    cases kind with
    | list =>
      rw [ofNode] at found
      obtain ⟨_,-,quotation⟩ := SyntaxError.ok_of_bind found
      cases quotation
      rfl
    | vector =>
      cases inner with
      | list nodes place =>
        rw [ofNode] at found
        obtain ⟨_,-,quotation⟩ := SyntaxError.ok_of_bind found
        cases quotation
        rfl
      | _ => contradiction
  | list nodes pos =>
    rw [ofNode] at found
    split at found
    next inPlace =>
      unfold ofChain at found
      split at found
      · cases found
        rfl
      · -- a chain that is all tail has its dot out of place
        exact absurd inPlace Bool.false_ne_true
      · obtain ⟨_,-,rest⟩ := SyntaxError.ok_of_bind found
        obtain ⟨_,-,pair⟩ := SyntaxError.ok_of_bind rest
        cases pair
        rfl
      · contradiction
      · obtain ⟨_,-,rest⟩ := SyntaxError.ok_of_bind found
        obtain ⟨_,-,pair⟩ := SyntaxError.ok_of_bind rest
        cases pair
        rfl
    next => contradiction

/-- What can be quoted can stand in a list. -/
theorem stands_of_quoted (found : ofQuoted kind n pos = .ok d) :
    Stands n d ∧ d.isVector = kind.isVector := by
  cases kind with
  | list =>
    have noVector := ofNode_not_vector found
    refine ⟨.plain noVector ?_ ?_ found,noVector⟩
    · cases n <;> first | rfl | contradiction
    · rintro place rfl
      contradiction
  | vector =>
    cases n with
    | list nodes place =>
      cases inside : ofItems nodes pos with
      | ok ds =>
        simp only [ofQuoted,ofVectorNode,inside] at found
        cases found
        exact ⟨.vector (ofItems_anywhere inside),rfl⟩
      | error e =>
        simp only [ofQuoted,ofVectorNode,inside] at found
        contradiction
    | _ => contradiction

theorem Stands.found (stands : Stands n d) (plain : d.isVector = false) : ofNode n = .ok d := by
  cases stands with
  | plain _ _ _ found => exact found
  | vector => contradiction

theorem bare_eq_pair {head tail : Datum} (same : d.bare = (pair head tail).bare) :
    ∃ a b, d = pair a b ∧ a.bare = head.bare ∧ b.bare = tail.bare := by
  cases d with
  | pair a b => exact ⟨a,b,rfl,(Datum.pair.inj same).1,(Datum.pair.inj same).2⟩
  | unspecified | nil | boolean | char | string | symbol | number | vector => contradiction

/-- A list with a vector behind its dot is none. -/
theorem ofNode_dotted_vector (stands : Stands n d) (mark : Position) (m : Node) (pos : Position) :
    ∃ place, ofNode (.list (Node.marked d.isVector n ++ [.dot .nowhere,.sharp mark,m]) pos) =
      .error ⟨.unexpectedDot,place⟩ := by
  have misplaced : ¬ dotsInPlace (Node.marked d.isVector n ++ [.dot .nowhere,.sharp mark,m]) = true := by
    have dot : [Node.dot .nowhere,.sharp mark,m].findIdx? Node.isDot = some 0 := rfl
    rw [dotsInPlace,Ends.findIdx? stands,dot]
    simp
  rw [ofNode,if_neg misplaced]
  exact ⟨_,rfl⟩

/-- `d.Spelt text`: among the items of a list, the text is the datum `d`. -/
def Spelt (d : Datum) (text : String) : Prop :=
  ∃ tokens ns n, Spells text.toList tokens ∧ Node.ofTokens tokens = .ok ns ∧
    Node.bareAll ns = Node.bareAll (Node.marked d.isVector n) ∧ Stands n d

/-- What was quoted with success is a datum in a list too. -/
theorem spelt_of_quoted {text : String} {source : Option String} {token : Token} {fuel : Nat}
    {env : FrameId} {before after : State} {v : Value} (plain : ';' ∉ text.toList)
    (single : Token.scan ("'" ++ text) source = .ok [token])
    (value : evaluate (.ofFuel fuel) ("'" ++ text) source env before = .ok v after) :
    ∃ kind inner pos, ∃ d : Datum, token = .quote kind inner pos ∧ d.isVector = kind.isVector ∧
      d.Spelt text ∧ after.store.Unfolds v d.tree := by
  obtain ⟨kind,inner,pos,tokens,rfl,quotes,spells⟩ := Token.spells_of_quoted plain single
  have parsed := parse_single single
  rw [Node.ofToken] at parsed
  obtain ⟨n,ns,read,nodes,same⟩ | ⟨d,e,unread,-,-⟩ := Node.ofTokens_quotes quotes
  · cases fuel with
    | zero =>
      rw [read] at parsed
      rw [evaluate_single parsed] at value
      contradiction
    | succ fuel =>
      obtain ⟨m,next,like,-,mark⟩ := evaluate_quoteMark single read fuel env before
      rw [mark] at value
      cases found : ofQuoted kind m pos with
      | error e =>
        rw [found,Eval.quote_error] at value
        contradiction
      | ok d =>
        rw [found,Eval.quote_ok] at value
        cases value
        obtain ⟨stands,vector⟩ := stands_of_quoted found
        refine ⟨kind,inner,pos,d,rfl,vector,⟨tokens,ns,m,spells,nodes,?_,stands⟩,Store.build_unfolds ..⟩
        rw [same,vector]
        exact Node.bareAll_marked like.symm _
  · rw [unread] at parsed
    rw [evaluate_unread parsed] at value
    contradiction

end Datum

/-- The text of a quoted list with a dot before its last datum. -/
def dottedText (head tail : String) : String := "'(" ++ head ++ " . " ++ tail ++ ")"

section Dotted

variable {head tail : String} {d e : Datum}

/-- The list of a dotted text as it is read, with its nodes one after the other. -/
def Node.dotted (ns ms : List Node) : Node := .list (ns ++ .dot .nowhere :: ms) .nowhere

theorem Node.bare_dotted {ns ns' ms ms' : List Node} (first : bareAll ns = bareAll ns')
    (second : bareAll ms = bareAll ms') : (Node.dotted ns ms).bare = (Node.dotted ns' ms').bare := by
  have inside : bareAll (ns ++ .dot .nowhere :: ms) = bareAll (ns' ++ .dot .nowhere :: ms') := by
    rw [bareAll_append,bareAll_append,first]
    exact congrArg (fun ms => bareAll ns' ++ Node.dot .nowhere :: ms) second
  exact congrArg (Node.list · .nowhere) inside

/-- A dotted text quotes the list of its nodes. -/
theorem evaluate_dottedText {ts us : List Token} {ns ms : List Node} (first : Spells head.toList ts)
    (second : Spells tail.toList us) (heads : Node.ofTokens ts = .ok ns)
    (tails : Node.ofTokens us = .ok ms) (fuel : Nat) (source : Option String) (env : FrameId)
    (state : State) :
    ∃ n next, n.bare = (Node.dotted ns ms).bare ∧ state.store.Extends next.store ∧
      evaluate (.ofFuel (fuel + 1)) (dottedText head tail) source env state =
        Eval.quote (Datum.ofNode n) next := by
  have spelled : (dottedText head tail).toList =
      '\x27' :: ('(' :: (head.toList ++ ' ' :: '.' :: ' ' :: tail.toList) ++ [')']) := by
    simp [dottedText]
  have whole := (first.append second.dotted).list.quote rfl
  rw [← spelled] at whole
  obtain ⟨found,scanned,places⟩ := whole.scan source
  obtain ⟨token,rfl,same⟩ := List.map_eq_singleton_iff.mp places
  obtain ⟨inner,pos,rfl,inside⟩ := Token.bare_eq_quote same
  have nodes : Node.ofToken (.list (ts ++ .atom .dot "." .nowhere :: us) .nowhere) =
      .ok (Node.dotted ns ms) := by
    have dot : Node.ofTokens (.atom .dot "." .nowhere :: us) = .ok (.dot .nowhere :: ms) := by
      rw [Node.ofTokens,tails]
      rfl
    rw [Node.ofToken,Node.ofTokens_append heads dot]
    rfl
  obtain ⟨n,read,like⟩ := Node.ofToken_bare inside nodes
  obtain ⟨m,next,labels,grown,result⟩ := evaluate_quoteMark scanned read fuel env state
  exact ⟨m,next,labels.trans like,grown,result⟩

/-- The pair of a datum and a tail that is no vector is built in fresh cells. -/
theorem evaluate_spelt_pair {s t : Store} {x y : Value} (first : d.Spelt head)
    (second : e.Spelt tail) (left : s.Unfolds x d.tree) (right : t.Unfolds y e.tree)
    (plain : e.isVector = false) (fuel : Nat) (source : Option String) (env : FrameId)
    (state : State) :
    ∃ p v w next, evaluate (.ofFuel (fuel + 1)) (dottedText head tail) source env state =
        .ok (.pair p) next ∧ next.store.pair? p = some ⟨v,w⟩ ∧ s.Matches x next.store v ∧
      t.Matches y next.store w ∧ state.store.Extends next.store := by
  obtain ⟨ts,ns,n,spells,heads,same,stands⟩ := first
  obtain ⟨us,ms,m,spells',tails,same',stands'⟩ := second
  obtain ⟨q,next,like,grown,result⟩ := evaluate_dottedText spells spells' heads tails fuel source env state
  rw [plain] at same'
  have whole : Datum.ofNode (Node.dotted (Node.marked d.isVector n) [m]) = .ok (.pair d e) :=
    Datum.Ends.list stands (.dotted .nowhere (stands'.found plain)) .nowhere
  obtain ⟨built,found,labels⟩ := Datum.ofNode_bare (like.trans (Node.bare_dotted same same')) whole
  obtain ⟨a,b,rfl,heads,tails⟩ := Datum.bare_eq_pair labels
  rw [found,Eval.quote_ok] at result
  have holds := next.store.build_unfolds (.pair a b)
  generalize (next.store.build (.pair a b)).1 = v at result holds
  cases holds with
  | pair cell first second =>
    exact ⟨_,_,_,_,result,cell,.of_bare left first heads.symm,.of_bare right second tails.symm,
      grown.trans (Store.build_extends ..)⟩

/-- A vector behind a dot is not read. -/
theorem evaluate_spelt_vector (first : d.Spelt head) (second : e.Spelt tail)
    (vector : e.isVector = true) (fuel : Nat) (source : Option String) (env : FrameId)
    (state : State) :
    ∃ pos next, evaluate (.ofFuel (fuel + 1)) (dottedText head tail) source env state =
      .error (.reading ⟨.unexpectedDot,pos⟩) next := by
  obtain ⟨ts,ns,n,spells,heads,same,stands⟩ := first
  obtain ⟨us,ms,m,spells',tails,same',stands'⟩ := second
  obtain ⟨q,next,like,-,result⟩ := evaluate_dottedText spells spells' heads tails fuel source env state
  rw [vector] at same'
  obtain ⟨place,whole⟩ := Datum.ofNode_dotted_vector stands .nowhere m .nowhere
  obtain ⟨_,_,_,ok,-⟩ | ⟨⟨fault,pos⟩,_,failed,expected,rfl⟩ :=
    Datum.ofNode_agree (like.trans (Node.bare_dotted same same'))
  · cases whole.symm.trans ok
  · cases whole.symm.trans expected
    rw [failed,Eval.quote_error] at result
    exact ⟨pos,next,result⟩

/-- Two data that can be quoted can be quoted as a pair: the head and the tail of the pair equal what
they are on their own, if the tail is no vector. A vector behind the dot is an error. -/
theorem evaluate_dotted {headName tailName : Option String} {headToken tailToken : Token}
    {headFuel tailFuel : Nat} {headEnv tailEnv : FrameId} {start middle afterHead afterTail : State}
    {x y : Value} (headPlain : ';' ∉ head.toList) (tailPlain : ';' ∉ tail.toList)
    (headSingle : Token.scan ("'" ++ head) headName = .ok [headToken])
    (tailSingle : Token.scan ("'" ++ tail) tailName = .ok [tailToken])
    (headValue : evaluate (.ofFuel headFuel) ("'" ++ head) headName headEnv start = .ok x afterHead)
    (tailValue : evaluate (.ofFuel tailFuel) ("'" ++ tail) tailName tailEnv middle = .ok y afterTail)
    (fuel : Nat) (source : Option String) (env : FrameId) (state : State) :
    ∃ kind inner pos, tailToken = .quote kind inner pos ∧
      (kind = .list → ∃ p v w next,
        evaluate (.ofFuel (fuel + 1)) (dottedText head tail) source env state = .ok (.pair p) next ∧
          next.store.pair? p = some ⟨v,w⟩ ∧ afterHead.store.Matches x next.store v ∧
          afterTail.store.Matches y next.store w ∧ state.store.Extends next.store) ∧
      (kind = .vector → ∃ pos next,
        evaluate (.ofFuel (fuel + 1)) (dottedText head tail) source env state =
          .error (.reading ⟨.unexpectedDot,pos⟩) next) := by
  obtain ⟨-,-,-,d,-,-,first,left⟩ := Datum.spelt_of_quoted headPlain headSingle headValue
  obtain ⟨kind,inner,pos,e,shape,vector,second,right⟩ :=
    Datum.spelt_of_quoted tailPlain tailSingle tailValue
  refine ⟨kind,inner,pos,shape,?_,?_⟩
  · rintro rfl
    exact evaluate_spelt_pair first second left right vector fuel source env state
  · rintro rfl
    exact evaluate_spelt_vector first second vector fuel source env state

/-- A vector before the dot and a quotation behind it. -/
theorem evaluate_dotted_quotation :
    ∃ x y afterHead afterTail p v w next,
      evaluate (.ofFuel ampleFuel) "'#(a)" none Global.frame .initial = .ok x afterHead ∧
      evaluate (.ofFuel ampleFuel) "''b" none Global.frame .initial = .ok y afterTail ∧
      evaluate (.ofFuel ampleFuel) "'(#(a) . 'b)" none Global.frame .initial = .ok (.pair p) next ∧
      next.store.pair? p = some ⟨v,w⟩ ∧ afterHead.store.Matches x next.store v ∧
      afterTail.store.Matches y next.store w := by
  have headPlain : ';' ∉ "#(a)".toList := by decide
  have tailPlain : ';' ∉ "'b".toList := by decide
  have headSingle : Token.scan "'#(a)" none = .ok [.quote .vector
      (.list [.atom .symbol "a" ⟨1,4,none⟩] ⟨1,3,none⟩) ⟨1,1,none⟩] := rfl
  have tailSingle : Token.scan "''b" none = .ok [.quote .list
      (.quote .list (.atom .symbol "b" ⟨1,3,none⟩) ⟨1,2,none⟩) ⟨1,1,none⟩] := rfl
  obtain ⟨x,afterHead,headValue⟩ : ∃ x after,
      evaluate (.ofFuel ampleFuel) "'#(a)" none Global.frame .initial = .ok x after := ⟨_,_,rfl⟩
  obtain ⟨y,afterTail,tailValue⟩ : ∃ y after,
      evaluate (.ofFuel ampleFuel) "''b" none Global.frame .initial = .ok y after := ⟨_,_,rfl⟩
  obtain ⟨kind,inner,pos,shape,pair,-⟩ := evaluate_dotted headPlain tailPlain headSingle tailSingle
    headValue tailValue 999999 none Global.frame .initial
  cases shape
  obtain ⟨p,v,w,next,result,cell,heads,tails,-⟩ := pair rfl
  exact ⟨x,y,afterHead,afterTail,p,v,w,next,headValue,tailValue,result,cell,heads,tails⟩

/-- Both data can be quoted, and cannot be quoted as a pair. -/
theorem evaluate_dotted_vector :
    (∃ x next, evaluate (.ofFuel ampleFuel) "'1" none Global.frame .initial = .ok x next) ∧
    (∃ y next, evaluate (.ofFuel ampleFuel) "'#(2 3)" none Global.frame .initial = .ok y next) ∧
    ∃ pos next, evaluate (.ofFuel ampleFuel) "'(1 . #(2 3))" none Global.frame .initial =
      .error (.reading ⟨.unexpectedDot,pos⟩) next :=
  ⟨⟨_,_,rfl⟩,⟨_,_,rfl⟩,_,_,rfl⟩

end Dotted
end MiniScheme
