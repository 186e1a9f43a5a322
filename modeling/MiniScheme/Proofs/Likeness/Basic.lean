import Mathlib.Data.List.Forall2
import MiniScheme.Eval.Interpreter

/-! Likeness of programs and of what is made of them. Two trees are alike if they differ in places
only, where a likeness says which places may stand for each other. It also says which numbers may
occur. All that reads a tree finds the same in like trees, apart from the places of its errors. -/
namespace MiniScheme

/-- The arithmetic that programs can do. -/
abbrev Primitive.operations : List Primitive.Binary :=
  [Number.add,Number.mul,Number.sub,Number.div]

/-- Places that may stand for each other, and numbers that may occur. Numbers come from literals,
from lengths and from arithmetic. -/
structure Likeness where
  place : Position → Position → Prop
  number : Number → Prop
  literal {text : String} {n : Number} : Number.parse? text = some n → number n
  integer (n : Nat) : number (.integer n)
  pi : number (.float 3.141592653589793)
  arithmetic {op : Primitive.Binary} {a b c : Number} : op ∈ Primitive.operations → number a →
    number b → op a b = .ok c → number c

/-- Tokens that differ in places only. -/
inductive Token.Like (L : Likeness) : Token → Token → Prop where
  | atom (kind : AtomKind) (text : String) {p q : Position} : L.place p q →
      Like L (.atom kind text p) (.atom kind text q)
  | list {ts us : List Token} {p q : Position} : List.Forall₂ (Like L) ts us → L.place p q →
      Like L (.list ts p) (.list us q)
  | quote (kind : QuoteKind) {t u : Token} {p q : Position} : Like L t u → L.place p q →
      Like L (.quote kind t p) (.quote kind u q)

/-- Trees that differ in places only. -/
inductive Node.Like (L : Likeness) : Node → Node → Prop where
  | string (text : String) (label : Nat) {p q : Position} : L.place p q →
      Like L (.string text label p) (.string text label q)
  | char (c : Char) {p q : Position} : L.place p q → Like L (.char c p) (.char c q)
  | boolean (b : Bool) {p q : Position} : L.place p q → Like L (.boolean b p) (.boolean b q)
  | number {n : Number} {p q : Position} : L.number n → L.place p q →
      Like L (.number n p) (.number n q)
  | quote (kind : QuoteKind) {n m : Node} {p q : Position} : Like L n m → L.place p q →
      Like L (.quote kind n p) (.quote kind m q)
  | symbol (name : String) {p q : Position} : L.place p q → Like L (.symbol name p) (.symbol name q)
  | list {ns ms : List Node} {p q : Position} : List.Forall₂ (Like L) ns ms → L.place p q →
      Like L (.list ns p) (.list ms q)
  | dot {p q : Position} : L.place p q → Like L (.dot p) (.dot q)
  | sharp {p q : Position} : L.place p q → Like L (.sharp p) (.sharp q)

abbrev Node.LikeAll (L : Likeness) : List Node → List Node → Prop := List.Forall₂ (Node.Like L)

/-- Data have no places, so like data are equal; their numbers are those that may occur. -/
inductive Datum.Like (L : Likeness) : Datum → Datum → Prop where
  | unspecified : Like L .unspecified .unspecified
  | nil : Like L .nil .nil
  | boolean (b : Bool) : Like L (.boolean b) (.boolean b)
  | char (c : Char) : Like L (.char c) (.char c)
  | string (text : String) (label : Nat) : Like L (.string text label) (.string text label)
  | symbol (name : String) : Like L (.symbol name) (.symbol name)
  | number {n : Number} : L.number n → Like L (.number n) (.number n)
  | pair {a b c d : Datum} : Like L a b → Like L c d → Like L (.pair a c) (.pair b d)
  | vector {as bs : List Datum} : List.Forall₂ (Like L) as bs → Like L (.vector as) (.vector bs)

structure Rule.Like (L : Likeness) (a b : Rule) : Prop where
  pattern : a.pattern = b.pattern
  body : Node.LikeAll L a.body b.body

inductive Delayed.Like (L : Likeness) : Delayed → Delayed → Prop where
  | intro {n m : Node} (env : FrameId) : Node.Like L n m → Like L ⟨n,env⟩ ⟨m,env⟩

/-- Values that differ only in the trees they carry: in the bodies of closures, the rules of
transformers and delayed fragments. -/
inductive Value.Like (L : Likeness) : Value → Value → Prop where
  | unspecified : Like L .unspecified .unspecified
  | nil : Like L .nil .nil
  | boolean (b : Bool) : Like L (.boolean b) (.boolean b)
  | char (c : Char) : Like L (.char c) (.char c)
  | string (text : String) (label : Nat) : Like L (.string text label) (.string text label)
  | symbol (name : String) : Like L (.symbol name) (.symbol name)
  | number {n : Number} : L.number n → Like L (.number n) (.number n)
  | pair (cell : PairId) : Like L (.pair cell) (.pair cell)
  | vector (cell : VectorId) : Like L (.vector cell) (.vector cell)
  | closure (id : Nat) (params : Params) (env : FrameId) {ns ms : List Node} : Node.LikeAll L ns ms →
      Like L (.closure ⟨id,params,ns,env⟩) (.closure ⟨id,params,ms,env⟩)
  | transformer (id : Nat) (env : FrameId) {rs ss : List Rule} : List.Forall₂ (Rule.Like L) rs ss →
      Like L (.transformer ⟨id,rs,env⟩) (.transformer ⟨id,ss,env⟩)
  | delayed {d e : Delayed} : Delayed.Like L d e → Like L (.delayed d) (.delayed e)
  | primitive (p : Primitive) : Like L (.primitive p) (.primitive p)
  | form (f : SpecialForm) : Like L (.form f) (.form f)

abbrev Value.LikeAll (L : Likeness) : List Value → List Value → Prop := List.Forall₂ (Value.Like L)

inductive Operand.Like (L : Likeness) : Operand → Operand → Prop where
  | node {n m : Node} : Node.Like L n m → Like L (.node n) (.node m)
  | deferred {d e : Delayed} : Delayed.Like L d e → Like L (.deferred d) (.deferred e)
  | value {v w : Value} : Value.Like L v w → Like L (.value v) (.value w)

abbrev Operand.LikeAll (L : Likeness) : List Operand → List Operand → Prop :=
  List.Forall₂ (Operand.Like L)

inductive SyntaxError.Like (L : Likeness) : SyntaxError → SyntaxError → Prop where
  | intro (fault : SyntaxFault) {p q : Position} : L.place p q → Like L ⟨fault,p⟩ ⟨fault,q⟩

/-- Readings that give like results, or fail at like places. -/
inductive Reads (L : Likeness) {α : Type} (A : α → α → Prop) :
    Except SyntaxError α → Except SyntaxError α → Prop where
  | ok {a b : α} : A a b → Reads L A (.ok a) (.ok b)
  | error {e f : SyntaxError} : SyntaxError.Like L e f → Reads L A (.error e) (.error f)

variable {L : Likeness}

theorem rel_bind {α β : Type} {A : α → α → Prop} {B : β → β → Prop} {x y : Option α}
    {f g : α → Option β} (first : Option.Rel A x y)
    (next : ∀ {a b}, A a b → Option.Rel B (f a) (g b)) : Option.Rel B (x >>= f) (y >>= g) := by
  cases first with
  | some like => exact next like
  | none => exact .none

namespace Reads

variable {α β : Type} {A : α → α → Prop} {B : β → β → Prop}

theorem bind {x y : Except SyntaxError α} {f g : α → Except SyntaxError β} (first : Reads L A x y)
    (next : ∀ {a b}, A a b → Reads L B (f a) (g b)) : Reads L B (x >>= f) (y >>= g) := by
  cases first with
  | ok like => exact next like
  | error like => exact .error like

theorem map {x y : Except SyntaxError α} {f : α → β} (read : Reads L A x y)
    (next : ∀ {a b}, A a b → B (f a) (f b)) : Reads L B (f <$> x) (f <$> y) := by
  cases read with
  | ok like => exact .ok (next like)
  | error like => exact .error like

theorem fault (fault : SyntaxFault) {p q : Position} (place : L.place p q) :
    Reads L A (.error ⟨fault,p⟩) (.error ⟨fault,q⟩) := .error (.intro fault place)

end Reads

/-! What is read off like trees. -/

namespace Node

theorem Like.pos {n m : Node} (like : Like L n m) : L.place n.pos m.pos := by
  cases like <;> assumption

theorem Like.name? {n m : Node} (like : Like L n m) : n.name? = m.name? := by cases like <;> rfl

theorem Like.isDot {n m : Node} (like : Like L n m) : n.isDot = m.isDot := by cases like <;> rfl

theorem Like.isEllipsis {n m : Node} (like : Like L n m) : n.isEllipsis = m.isEllipsis := by
  rw [Node.isEllipsis,Node.isEllipsis,like.name?]

theorem LikeAll.headEllipsis {ns ms : List Node} (like : LikeAll L ns ms) :
    ns.head?.any Node.isEllipsis = ms.head?.any Node.isEllipsis := by
  cases like with
  | nil => rfl
  | cons head _ => exact head.isEllipsis

theorem Like.items? {n m : Node} (like : Like L n m) :
    Option.Rel (LikeAll L) n.items? m.items? := by
  cases like with
  | list items => exact .some items
  | string | char | boolean | number | quote | symbol | dot | sharp => exact .none

theorem ofAtom_like (kind : AtomKind) (text : String) {p q : Position} (place : L.place p q) :
    Reads L (Like L) (ofAtom kind text p) (ofAtom kind text q) := by
  cases kind with
  | symbol => exact .ok (.symbol text place)
  | dot => exact .ok (.dot place)
  | sharp => exact .ok (.sharp place)
  | string => exact .ok (.string text 0 place)
  | boolean => exact .ok (.boolean _ place)
  | char =>
    simp only [ofAtom]
    split
    · exact .ok (.char _ place)
    · exact .fault _ place
  | number =>
    simp only [ofAtom]
    split
    next found => exact .ok (.number (L.literal found) place)
    next => exact .fault _ place

mutual

theorem ofToken_like : {t u : Token} → Token.Like L t u →
    Reads L (Like L) (ofToken t) (ofToken u)
  | _,_,.atom kind text place => ofAtom_like kind text place
  | _,_,.list items place =>
    .bind (ofTokens_like items) fun like => .ok (.list like place)
  | _,_,.quote kind inner place =>
    .bind (ofToken_like inner) fun like => .ok (.quote kind like place)

theorem ofTokens_like : {ts us : List Token} → List.Forall₂ (Token.Like L) ts us →
    Reads L (LikeAll L) (ofTokens ts) (ofTokens us)
  | _,_,.nil => .ok .nil
  | _,_,.cons head tail =>
    .bind (ofToken_like head) fun first => .bind (ofTokens_like tail) fun rest => .ok (.cons first rest)

end

mutual

theorem label_like (next : Nat) : {n m : Node} → Like L n m →
    Like L (n.label next).1 (m.label next).1 ∧ (n.label next).2 = (m.label next).2
  | _,_,.string text _ place => ⟨.string text next place,rfl⟩
  | _,_,.quote kind inner place =>
    ⟨.quote kind (label_like next inner).1 place,(label_like next inner).2⟩
  | _,_,.list items place => ⟨.list (labelAll_like next items).1 place,(labelAll_like next items).2⟩
  | _,_,.char c place => ⟨.char c place,rfl⟩
  | _,_,.boolean b place => ⟨.boolean b place,rfl⟩
  | _,_,.number known place => ⟨.number known place,rfl⟩
  | _,_,.symbol name place => ⟨.symbol name place,rfl⟩
  | _,_,.dot place => ⟨.dot place,rfl⟩
  | _,_,.sharp place => ⟨.sharp place,rfl⟩

theorem labelAll_like (next : Nat) : {ns ms : List Node} → LikeAll L ns ms →
    LikeAll L (labelAll next ns).1 (labelAll next ms).1 ∧ (labelAll next ns).2 = (labelAll next ms).2
  | _,_,.nil => ⟨.nil,rfl⟩
  | _,_,.cons head tail => by
    obtain ⟨first,same⟩ := label_like next head
    simp only [labelAll,same]
    exact ⟨.cons first (labelAll_like _ tail).1,(labelAll_like _ tail).2⟩

end

end Node

namespace Datum

theorem findDot_like {ns ms : List Node} (like : Node.LikeAll L ns ms) :
    ns.findIdx? Node.isDot = ms.findIdx? Node.isDot := by
  induction like with
  | nil => rfl
  | cons head _ ih => rw [List.findIdx?_cons,List.findIdx?_cons,head.isDot,ih]

theorem dotsInPlace_like {ns ms : List Node} (like : Node.LikeAll L ns ms) :
    dotsInPlace ns = dotsInPlace ms := by
  rw [dotsInPlace,dotsInPlace,findDot_like like,like.length_eq]

theorem firstDot_like {ns ms : List Node} {p q : Position} (like : Node.LikeAll L ns ms)
    (place : L.place p q) : L.place (firstDot ns p) (firstDot ms q) := by
  induction like with
  | nil => exact place
  | @cons n m ns ms head _ ih =>
    simp only [firstDot,List.find?_cons,← head.isDot] at ih ⊢
    cases n.isDot with
    | true => exact head.pos
    | false => exact ih

theorem quotation_like {d e : Datum} (like : Like L d e) : Like L (quotation d) (quotation e) :=
  .pair (.symbol "quote") (.pair like .nil)

/-- The first item of a list is read by itself unless it is a mark that takes what follows. -/
theorem ofChain_item {n : Node} {rest : List Node} {pos : Position} (plain : ∀ p, n ≠ .sharp p)
    (inside : ∀ p, n = .dot p → rest.length ≠ 1) :
    ofChain (n :: rest) pos = (do
      let head ← ofNode n
      return pair head (← ofChain rest pos)) := by
  rw [ofChain]
  · rintro p last rfl rfl
    exact inside p rfl rfl
  · rintro p _ _ _ rfl
    exact absurd rfl (plain p)
  · rintro p rfl
    exact absurd rfl (plain p)

theorem ofItems_item {n : Node} {rest : List Node} {pos : Position} (plain : ∀ p, n ≠ .sharp p) :
    ofItems (n :: rest) pos = (do
      let item ← ofNode n
      return item :: (← ofItems rest pos)) := by
  rw [ofItems]
  · rintro p _ _ _ rfl
    exact absurd rfl (plain p)
  · rintro p rfl
    exact absurd rfl (plain p)

theorem ofChain_item_like {n m : Node} {ns ms : List Node} {p q : Position}
    (head : Node.Like L n m) (tail : Node.LikeAll L ns ms)
    (first : Reads L (Like L) (ofNode n) (ofNode m))
    (rest : Reads L (Like L) (ofChain ns p) (ofChain ms q)) (plain : ∀ p, n ≠ .sharp p)
    (inside : ∀ p, n = .dot p → ns.length ≠ 1) :
    Reads L (Like L) (ofChain (n :: ns) p) (ofChain (m :: ms) q) := by
  rw [ofChain_item plain inside,ofChain_item]
  · exact .bind first fun item => .bind rest fun items => .ok (.pair item items)
  · rintro _ rfl
    cases head
    exact plain _ rfl
  · rintro _ rfl
    cases head
    rw [← tail.length_eq]
    exact inside _ rfl

mutual

/-- Like nodes denote the same datum under a quote, or none. -/
theorem ofNode_like {n m : Node} (like : Node.Like L n m) :
    Reads L (Like L) (ofNode n) (ofNode m) := by
  cases like with
  | symbol name _ => exact .ok (.symbol name)
  | string text label _ => exact .ok (.string text label)
  | char c _ => exact .ok (.char c)
  | boolean b _ => exact .ok (.boolean b)
  | number known _ => exact .ok (.number known)
  | dot place | sharp place => exact .fault _ place
  | list items place =>
    rw [ofNode,ofNode,dotsInPlace_like items]
    split
    · exact ofChain_like items place
    · exact .fault _ (firstDot_like items place)
  | quote kind inner place =>
    cases kind with
    | list => exact .bind (ofNode_like inner) fun like => .ok (quotation_like like)
    | vector =>
      cases inner with
      | list items _ =>
        exact .bind (ofItems_like items place) fun like => .ok (quotation_like (.vector like))
      | symbol | string | char | boolean | number | quote | dot | sharp => exact .fault _ place
termination_by sizeOf n

theorem ofChain_like {ns ms : List Node} {p q : Position} (like : Node.LikeAll L ns ms)
    (place : L.place p q) : Reads L (Like L) (ofChain ns p) (ofChain ms q) := by
  cases like with
  | nil => exact .ok .nil
  | cons head tail =>
    have first := ofNode_like head
    have rest := ofChain_like tail place
    have item := ofChain_item_like head tail first rest
    cases head with
    | sharp _ =>
      cases tail with
      | nil => exact .fault _ place
      | cons next more =>
        cases next with
        | list items inner =>
          exact .bind (ofItems_like items inner) fun vector =>
            .bind (ofChain_like more place) fun tail => .ok (.pair (.vector vector) tail)
        | symbol | string | char | boolean | number | quote | dot | sharp => exact .fault _ place
    | dot _ =>
      cases tail with
      | nil => exact item (by simp) (by simp)
      | cons last more =>
        cases more with
        | nil => exact ofNode_like last
        | cons => exact item (by simp) (by simp)
    | symbol | string | char | boolean | number | quote | list =>
      exact item (by simp) (by simp)
termination_by sizeOf ns

theorem ofItems_like {ns ms : List Node} {p q : Position} (like : Node.LikeAll L ns ms)
    (place : L.place p q) : Reads L (List.Forall₂ (Like L)) (ofItems ns p) (ofItems ms q) := by
  cases like with
  | nil => exact .ok .nil
  | cons head tail =>
    have first := ofNode_like head
    have rest := ofItems_like tail place
    cases head with
    | sharp _ =>
      cases tail with
      | nil => exact .fault _ place
      | cons next more =>
        cases next with
        | list items inner =>
          exact .bind (ofItems_like items inner) fun vector =>
            .bind (ofItems_like more place) fun items => .ok (.cons (.vector vector) items)
        | symbol | string | char | boolean | number | quote | dot | sharp => exact .fault _ place
    | symbol | string | char | boolean | number | quote | dot | list =>
      rw [ofItems_item (by simp),ofItems_item (by simp)]
      exact .bind first fun item => .bind rest fun items => .ok (.cons item items)
termination_by sizeOf ns

end

theorem ofVectorNode_like {n m : Node} {p q : Position} (like : Node.Like L n m)
    (place : L.place p q) : Reads L (Like L) (ofVectorNode n p) (ofVectorNode m q) := by
  cases like with
  | list items _ => exact .map (ofItems_like items place) fun like => .vector like
  | symbol | string | char | boolean | number | quote | dot | sharp => exact .fault _ place

end Datum

namespace Params

theorem afterDot_like {ns ms : List Node} {p q : Position} (rest : Option String)
    (like : Node.LikeAll L ns ms) (place : L.place p q) :
    Reads L Eq (afterDot p rest ns) (afterDot q rest ms) := by
  induction like generalizing rest with
  | nil =>
    rw [afterDot,afterDot]
    split
    · exact .ok rfl
    · exact .fault _ place
  | cons head _ ih =>
    cases head with
    | dot second => exact .fault _ second
    | symbol name _ =>
      rw [afterDot,afterDot]
      split
      · exact ih (some name)
      · exact .fault _ place
    | string | char | boolean | number | quote | list | sharp => exact .fault _ place

theorem items_like {ns ms : List Node} {p q : Position} (like : Node.LikeAll L ns ms)
    (place : L.place p q) : Reads L Eq (items p ns) (items q ms) := by
  induction like with
  | nil => exact .ok rfl
  | cons head tail ih =>
    cases head with
    | symbol name _ =>
      refine .bind ih ?_
      rintro params _ rfl
      exact .ok rfl
    | dot _ => exact afterDot_like none tail place
    | string | char | boolean | number | quote | list | sharp => exact .fault _ place

theorem ofItems_like {ns ms : List Node} {p q : Position} (like : Node.LikeAll L ns ms)
    (place : L.place p q) : Reads L Eq (ofItems ns p) (ofItems ms q) := by
  refine .bind (items_like like place) ?_
  rintro params _ rfl
  split
  · exact .fault _ place
  · exact .ok rfl

theorem ofNode_like {n m : Node} (like : Node.Like L n m) : Reads L Eq (ofNode n) (ofNode m) := by
  cases like with
  | symbol => exact .ok rfl
  | list items place => exact ofItems_like items place
  | dot place | string _ _ place | char _ place | boolean _ place | number _ place
  | quote _ _ place | sharp place => exact .fault _ place

/-- A signature with a list of parameters behind the name. -/
theorem signature_list {name : String} {p pos : Position} {formals : List Node}
    (noRest : ∀ p rest q, formals ≠ [.dot p,.symbol rest q]) :
    signature (.symbol name p :: formals) pos = (do return (name,← ofItems formals pos)) := by
  unfold signature
  split
  next shape =>
    cases shape
    exact absurd rfl (noRest _ _ _)
  next shape =>
    cases shape
    rfl
  next other => exact absurd rfl (other _ _ _)

theorem signature_like {ns ms : List Node} {p q : Position} (like : Node.LikeAll L ns ms)
    (place : L.place p q) : Reads L Eq (signature ns p) (signature ms q) := by
  cases like with
  | nil => exact .fault _ place
  | @cons n m formals others head tail =>
    cases head with
    | string | char | boolean | number | quote | list | dot | sharp => exact .fault _ place
    | symbol name _ =>
      by_cases rest : ∃ p name q, formals = [.dot p,.symbol name q]
      · obtain ⟨_,_,_,rfl⟩ := rest
        cases tail with | cons dot tail =>
        cases tail with | cons symbol tail =>
        cases dot
        cases symbol
        cases tail
        exact .ok rfl
      · have noRest : ∀ p name q, formals ≠ [.dot p,.symbol name q] := by simpa using rest
        have noOther : ∀ p name q, others ≠ [.dot p,.symbol name q] := by
          rintro _ _ _ rfl
          cases tail with | cons dot tail =>
          cases tail with | cons symbol tail =>
          cases dot
          cases symbol
          cases tail
          exact noRest _ _ _ rfl
        rw [signature_list noRest,signature_list noOther]
        exact .map (ofItems_like tail place) fun same => congrArg (name,·) same

end Params

namespace PatternItem

mutual

theorem ofNode?_like (keywords : List String) {n m : Node} (like : Node.Like L n m) :
    ofNode? keywords n = ofNode? keywords m := by
  cases like with
  | list items _ => rw [ofNode?,ofNode?,ofNodes?_like keywords items]
  | string | char | boolean | number | quote | symbol | dot | sharp => rfl
termination_by sizeOf n

/-- Like nodes spell the same pattern. -/
theorem ofNodes?_like (keywords : List String) {ns ms : List Node} (like : Node.LikeAll L ns ms) :
    ofNodes? keywords ns = ofNodes? keywords ms := by
  cases like with
  | nil => rfl
  | cons head tail =>
    have first := ofNode?_like keywords head
    have rest := ofNodes?_like keywords tail
    cases head with
    | symbol name _ =>
      rw [ofNodes?,ofNodes?,rest,tail.length_eq,Node.LikeAll.headEllipsis tail]
    | string | char | boolean | number | quote | list | dot | sharp =>
      simp only [ofNodes?,first,rest]
termination_by sizeOf ns

end

end PatternItem
end MiniScheme
