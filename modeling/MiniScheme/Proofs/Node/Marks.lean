import MiniScheme.Datum
import MiniScheme.Proofs.Token.Scan

/-! Places and labels. A syntax tree carries the places of its parts and the labels of its strings,
and neither decides what it means: changing them before reading a datum is changing them after. -/
namespace MiniScheme

namespace Datum

mutual

def relabel (g : Nat → Nat) : Datum → Datum
  | string text label => string text (g label)
  | pair head tail => pair (head.relabel g) (tail.relabel g)
  | vector items => vector (relabelAll g items)
  | other => other

def relabelAll (g : Nat → Nat) : List Datum → List Datum
  | [] => []
  | d :: ds => d.relabel g :: relabelAll g ds

end

/-- A datum without the labels of its strings. -/
def bare (d : Datum) : Datum := d.relabel fun _ => 0

mutual

theorem relabel_relabel (g h : Nat → Nat) :
    (d : Datum) → (d.relabel g).relabel h = d.relabel fun label => h (g label)
  | pair head tail => by simp only [relabel,relabel_relabel g h head,relabel_relabel g h tail]
  | vector items => by simp only [relabel,relabelAll_relabelAll g h items]
  | unspecified | nil | boolean _ | char _ | string _ _ | symbol _ | number _ => rfl

theorem relabelAll_relabelAll (g h : Nat → Nat) :
    (ds : List Datum) → relabelAll h (relabelAll g ds) = relabelAll (fun label => h (g label)) ds
  | [] => rfl
  | d :: ds => by simp only [relabelAll,relabel_relabel g h d,relabelAll_relabelAll g h ds]

end

theorem bare_bare (d : Datum) : d.bare.bare = d.bare := relabel_relabel ..

mutual

theorem relabel_id : (d : Datum) → d.relabel id = d
  | pair head tail => by rw [relabel,relabel_id head,relabel_id tail]
  | vector items => by rw [relabel,relabelAll_id items]
  | unspecified | nil | boolean _ | char _ | string _ _ | symbol _ | number _ => rfl

theorem relabelAll_id : (ds : List Datum) → relabelAll id ds = ds
  | [] => rfl
  | d :: ds => by rw [relabelAll,relabel_id d,relabelAll_id ds]

end

end Datum

namespace Node

mutual

/-- Changes the places and the labels of a node and of all nodes inside it. -/
def mapMarks (f : Position → Position) (g : Nat → Nat) : Node → Node
  | string text label pos => string text (g label) (f pos)
  | char c pos => char c (f pos)
  | boolean b pos => boolean b (f pos)
  | number n pos => number n (f pos)
  | quote kind inner pos => quote kind (inner.mapMarks f g) (f pos)
  | symbol name pos => symbol name (f pos)
  | list items pos => list (mapMarksAll f g items) (f pos)
  | dot pos => dot (f pos)
  | sharp pos => sharp (f pos)

def mapMarksAll (f : Position → Position) (g : Nat → Nat) : List Node → List Node
  | [] => []
  | n :: ns => n.mapMarks f g :: mapMarksAll f g ns

end

/-- A node without places and labels. -/
def bare (n : Node) : Node := n.mapMarks (fun _ => .nowhere) fun _ => 0

def bareAll (ns : List Node) : List Node := mapMarksAll (fun _ => .nowhere) (fun _ => 0) ns

variable {f : Position → Position} {g : Nat → Nat}

theorem mapMarksAll_eq_map (ns : List Node) : mapMarksAll f g ns = ns.map (mapMarks f g) := by
  induction ns with
  | nil => rfl
  | cons n ns ih => rw [mapMarksAll,ih,List.map_cons]

theorem isDot_mapMarks (n : Node) : (n.mapMarks f g).isDot = n.isDot := by cases n <;> rfl

theorem pos_mapMarks (n : Node) : (n.mapMarks f g).pos = f n.pos := by cases n <;> rfl

theorem mapMarks_eq_dot {n : Node} {pos : Position} (same : n.mapMarks f g = .dot pos) :
    ∃ place, n = .dot place := by
  cases n <;> first | contradiction | exact ⟨_,rfl⟩

theorem mapMarks_not_sharp {n : Node} (noSharp : ∀ pos, n = .sharp pos → False) (pos : Position)
    (same : n.mapMarks f g = .sharp pos) : False := by
  cases n <;> first | contradiction | exact noSharp _ rfl

theorem mapMarks_eq_list {n : Node} {items : List Node} {pos : Position}
    (same : n.mapMarks f g = .list items pos) : ∃ nodes place, n = .list nodes place := by
  cases n <;> first | contradiction | exact ⟨_,_,rfl⟩

theorem mapMarks_eq_quote {n inner : Node} {kind : QuoteKind} {pos : Position}
    (same : n.mapMarks f g = .quote kind inner pos) : ∃ m place, n = .quote kind m place := by
  cases n <;> cases same
  exact ⟨_,_,rfl⟩

/-- Nodes that start with no list do not get to start with one. -/
theorem mapMarksAll_not_list {ns : List Node}
    (noList : ∀ items pos rest, ns = .list items pos :: rest → False) (items : List Node)
    (pos : Position) (rest : List Node) (same : mapMarksAll f g ns = .list items pos :: rest) :
    False := by
  cases ns with
  | nil => contradiction
  | cons n ns =>
    obtain ⟨nodes,place,rfl⟩ := mapMarks_eq_list (List.cons.inj same).1
    exact noList nodes place ns rfl

theorem mapMarksAll_eq_singleton {ns : List Node} {last : Node}
    (same : mapMarksAll f g ns = [last]) : ∃ n, ns = [n] := by
  rw [mapMarksAll_eq_map] at same
  obtain ⟨n,rfl,-⟩ := List.map_eq_singleton_iff.mp same
  exact ⟨n,rfl⟩

theorem ofAtom_mapPos (zero : g 0 = 0) (kind : AtomKind) (text : String) (pos : Position) :
    ofAtom kind text (f pos) =
      ((ofAtom kind text pos).map (mapMarks f g)).mapError (SyntaxError.mapPos f) := by
  cases kind with
  | symbol | dot | sharp | boolean => rfl
  | string => simp [ofAtom,Except.map,Except.mapError,mapMarks,zero]
  | char =>
    simp only [ofAtom]
    split <;> rfl
  | number =>
    simp only [ofAtom]
    split <;> rfl

mutual

/-- The places of nodes are those of their tokens. -/
theorem ofToken_mapPos (zero : g 0 = 0) : (t : Token) → ofToken (t.mapPos f) =
    ((ofToken t).map (mapMarks f g)).mapError (SyntaxError.mapPos f)
  | .atom kind text pos => ofAtom_mapPos zero kind text pos
  | .list items pos => by
    rw [Token.mapPos,ofToken,ofToken,ofTokens_mapPos zero items]
    cases ofTokens items <;> rfl
  | .quote kind inner pos => by
    rw [Token.mapPos,ofToken,ofToken,ofToken_mapPos zero inner]
    cases ofToken inner <;> rfl

theorem ofTokens_mapPos (zero : g 0 = 0) : (ts : List Token) → ofTokens (Token.mapPosAll f ts) =
    ((ofTokens ts).map (mapMarksAll f g)).mapError (SyntaxError.mapPos f)
  | [] => rfl
  | t :: ts => by
    rw [Token.mapPosAll,ofTokens,ofTokens,ofToken_mapPos zero t,ofTokens_mapPos zero ts]
    cases ofToken t with
    | error e => rfl
    | ok n => cases ofTokens ts <;> rfl

end

theorem ofToken_bare {t u : Token} {n : Node} (same : u.bare = t.bare) (found : ofToken t = .ok n) :
    ∃ m, ofToken u = .ok m ∧ m.bare = n.bare := by
  have left : ofToken t.bare = ((ofToken t).map bare).mapError _ := ofToken_mapPos rfl t
  have right : ofToken u.bare = ((ofToken u).map bare).mapError _ := ofToken_mapPos rfl u
  rw [same,left,found] at right
  exact SyntaxError.ok_of_moved right.symm

mutual

/-- Numbering strings changes labels only. -/
theorem mapMarks_label (blind : ∀ a b, g a = g b) :
    (n : Node) → (next : Nat) → (n.label next).1.mapMarks f g = n.mapMarks f g
  | quote kind inner pos, next => congrArg (quote kind · (f pos)) (mapMarks_label blind inner next)
  | list items pos, next => congrArg (list · (f pos)) (mapMarksAll_labelAll blind items next)
  | string text label pos, next => congrArg (string text · (f pos)) (blind next label)
  | char _ _, _ | boolean _ _, _ | number _ _, _ | symbol _ _, _ | dot _, _ | sharp _, _ => rfl

theorem mapMarksAll_labelAll (blind : ∀ a b, g a = g b) :
    (ns : List Node) → (next : Nat) → mapMarksAll f g (labelAll next ns).1 = mapMarksAll f g ns
  | [], _ => rfl
  | n :: ns, next => by
    have first := mapMarks_label blind n next
    have rest := mapMarksAll_labelAll blind ns (n.label next).2
    simp only [labelAll,mapMarksAll,first,rest]

end

theorem bare_label (n : Node) (next : Nat) : (n.label next).1.bare = n.bare :=
  mapMarks_label (fun _ _ => rfl) n next

end Node

namespace Datum

variable {f : Position → Position} {g : Nat → Nat}

theorem dotsInPlace_mapMarks (ns : List Node) :
    dotsInPlace (Node.mapMarksAll f g ns) = dotsInPlace ns := by
  have dots : Node.isDot ∘ Node.mapMarks f g = Node.isDot := funext Node.isDot_mapMarks
  rw [dotsInPlace,dotsInPlace,Node.mapMarksAll_eq_map,List.findIdx?_map,dots,List.length_map]

theorem firstDot_mapMarks (ns : List Node) (pos : Position) :
    firstDot (Node.mapMarksAll f g ns) (f pos) = f (firstDot ns pos) := by
  have dots : Node.isDot ∘ Node.mapMarks f g = Node.isDot := funext Node.isDot_mapMarks
  rw [firstDot,firstDot,Node.mapMarksAll_eq_map,List.find?_map,dots]
  cases ns.find? Node.isDot with
  | none => rfl
  | some n => exact Node.pos_mapMarks n

/-- A datum and the labels of its strings depend on places only in errors, and on labels only in
its own labels. -/
theorem of_mapMarks :
    (∀ n, ofNode (n.mapMarks f g) =
      ((ofNode n).map (relabel g)).mapError (SyntaxError.mapPos f)) ∧
    (∀ ns pos, ofChain (Node.mapMarksAll f g ns) (f pos) =
      ((ofChain ns pos).map (relabel g)).mapError (SyntaxError.mapPos f)) ∧
    (∀ ns pos, ofItems (Node.mapMarksAll f g ns) (f pos) =
      ((ofItems ns pos).map (relabelAll g)).mapError (SyntaxError.mapPos f)) := by
  apply ofNode.mutual_induct
    (fun n => ofNode (n.mapMarks f g) =
      ((ofNode n).map (relabel g)).mapError (SyntaxError.mapPos f))
    (fun ns pos => ofChain (Node.mapMarksAll f g ns) (f pos) =
      ((ofChain ns pos).map (relabel g)).mapError (SyntaxError.mapPos f))
    (fun ns pos => ofItems (Node.mapMarksAll f g ns) (f pos) =
      ((ofItems ns pos).map (relabelAll g)).mapError (SyntaxError.mapPos f))
  -- single nodes: atoms, the two kinds of quote, lists with dots in and out of place
  · intro name pos; rfl
  · intro text label pos; rfl
  · intro c pos; rfl
  · intro b pos; rfl
  · intro n pos; rfl
  · intro inner pos ih
    rw [Node.mapMarks,ofNode,ofNode,ih]
    cases ofNode inner <;> rfl
  · intro nodes place pos ih
    rw [Node.mapMarks,Node.mapMarks,ofNode,ofNode,ih]
    cases ofItems nodes pos <;> rfl
  · intro inner pos noList
    rw [Node.mapMarks,ofNode,ofNode]
    · rfl
    · exact noList
    · intro nodes place same
      obtain ⟨nodes,place,rfl⟩ := Node.mapMarks_eq_list same
      exact noList nodes place rfl
  · intro nodes pos inPlace ih
    rw [Node.mapMarks,ofNode,ofNode,dotsInPlace_mapMarks,if_pos inPlace,if_pos inPlace,ih]
  · intro nodes pos misplaced
    rw [Node.mapMarks,ofNode,ofNode,dotsInPlace_mapMarks,if_neg misplaced,if_neg misplaced,
      firstDot_mapMarks]
    rfl
  · intro pos; rfl
  · intro pos; rfl
  -- the pairs of a list: its end, a dot, a vector, a mark without a vector, any other item
  · intro pos; rfl
  · intro place last pos ih
    exact ih
  · intro place nodes inner rest pos inside after
    rw [Node.mapMarksAll,Node.mapMarksAll,Node.mapMarks,Node.mapMarks,ofChain,ofChain,inside,after]
    cases ofItems nodes inner with
    | error e => rfl
    | ok items => cases ofChain rest pos <;> rfl
  · intro place tail pos noList
    rw [Node.mapMarksAll,Node.mapMarks,ofChain,ofChain]
    · rfl
    · exact noList
    · exact Node.mapMarksAll_not_list noList
  · intro n rest pos noDot noList noSharp head after
    rw [Node.mapMarksAll,ofChain,ofChain,head,after]
    · cases ofNode n with
      | error e => rfl
      | ok d => cases ofChain rest pos <;> rfl
    · exact noDot
    · exact noList
    · exact noSharp
    · intro place last dot same
      obtain ⟨place,rfl⟩ := Node.mapMarks_eq_dot dot
      obtain ⟨last,rfl⟩ := Node.mapMarksAll_eq_singleton same
      exact noDot place last rfl rfl
    · intro place nodes inner tail sharp
      exact (Node.mapMarks_not_sharp noSharp place sharp).elim
    · exact Node.mapMarks_not_sharp noSharp
  -- the elements of a vector: the same, without a dot
  · intro pos; rfl
  · intro place nodes inner rest pos inside after
    rw [Node.mapMarksAll,Node.mapMarksAll,Node.mapMarks,Node.mapMarks,ofItems,ofItems,inside,after]
    cases ofItems nodes inner with
    | error e => rfl
    | ok items => cases ofItems rest pos <;> rfl
  · intro place tail pos noList
    rw [Node.mapMarksAll,Node.mapMarks,ofItems,ofItems]
    · rfl
    · exact noList
    · exact Node.mapMarksAll_not_list noList
  · intro n rest pos noList noSharp head after
    rw [Node.mapMarksAll,ofItems,ofItems,head,after]
    · cases ofNode n with
      | error e => rfl
      | ok d => cases ofItems rest pos <;> rfl
    · exact noList
    · exact noSharp
    · intro place nodes inner tail sharp
      exact (Node.mapMarks_not_sharp noSharp place sharp).elim
    · exact Node.mapMarks_not_sharp noSharp

/-- Nodes that differ in places and labels only give data that differ in labels only. -/
theorem ofNode_bare {n m : Node} {d : Datum} (same : m.bare = n.bare) (found : ofNode n = .ok d) :
    ∃ e, ofNode m = .ok e ∧ e.bare = d.bare := by
  have left : ofNode n.bare = _ := of_mapMarks.1 n
  have right : ofNode m.bare = _ := of_mapMarks.1 m
  rw [same,left,found] at right
  exact SyntaxError.ok_of_moved right.symm

theorem ofItems_bare {ns ms : List Node} {ds : List Datum} (same : Node.bareAll ms = Node.bareAll ns)
    {pos : Position} (found : ofItems ns pos = .ok ds) (place : Position) :
    ∃ es, ofItems ms place = .ok es ∧ (vector es).bare = (vector ds).bare := by
  have left : ofItems (Node.bareAll ns) .nowhere = _ := of_mapMarks.2.2 ns pos
  have right : ofItems (Node.bareAll ms) .nowhere = _ := of_mapMarks.2.2 ms place
  rw [same,left,found] at right
  obtain ⟨es,items,labels⟩ := SyntaxError.ok_of_moved right.symm
  exact ⟨es,items,congrArg vector labels⟩

/-- The place of a vector is for its errors only. -/
theorem ofItems_anywhere {ns : List Node} {ds : List Datum} {pos : Position}
    (found : ofItems ns pos = .ok ds) (place : Position) : ofItems ns place = .ok ds := by
  have here : ofItems (Node.mapMarksAll (fun _ => .nowhere) id ns) .nowhere = _ :=
    of_mapMarks.2.2 ns pos
  have there : ofItems (Node.mapMarksAll (fun _ => .nowhere) id ns) .nowhere = _ :=
    of_mapMarks.2.2 ns place
  rw [here,found] at there
  obtain ⟨es,items,same⟩ := SyntaxError.ok_of_moved there.symm
  rw [relabelAll_id,relabelAll_id] at same
  rw [items,same]

end Datum
end MiniScheme
