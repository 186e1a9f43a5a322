import MiniScheme.Proofs.Likeness.Evaluator
import MiniScheme.Proofs.Number.Canonical
import MiniScheme.Proofs.Session.Steps

/-! The numbers of a session. Literals and arithmetic are the only sources of numbers, and both give
canonical ones, so whatever a session holds or returns is canonical. -/
namespace MiniScheme

/-- Any places may stand for each other, and only canonical numbers occur. -/
def Likeness.canonical : Likeness where
  place _ _ := True
  number := Number.Canonical
  literal := Number.parse?_canonical
  integer _ := trivial
  pi := ⟨rfl,rfl⟩
  arithmetic := by
    intro op a b c known left right result
    have lowest {f : Int → Int → Int} {x y r : Ratio} (_ : x.Lowest) (_ : y.Lowest) :
        Ratio.combine? f x y = some r → r.Lowest := Ratio.combine?_lowest
    simp only [Primitive.operations,List.mem_cons,List.not_mem_nil,or_false] at known
    rcases known with rfl | rfl | rfl | rfl
    · exact Number.apply_canonical lowest left right result
    · exact Number.apply_canonical Ratio.mul?_lowest left right result
    · exact Number.apply_canonical lowest left right result
    · exact Number.div_canonical left right result

/-! The numbers in trees, values and stores. -/

namespace Node

mutual

/-- The number literals of a tree, at every depth. -/
def numbers : Node → List Number
  | number n _ => [n]
  | quote _ inner _ => inner.numbers
  | list items _ => numbersAll items
  | string _ _ _ | char _ _ | boolean _ _ | symbol _ _ | dot _ | sharp _ => []

def numbersAll : List Node → List Number
  | [] => []
  | n :: ns => n.numbers ++ numbersAll ns

end

end Node

def Program.numbers (p : Program) : List Number := Node.numbersAll p.forms

/-- The numbers that a value is or carries in a tree. Cells are looked up in the store. -/
def Value.numbers : Value → List Number
  | number n => [n]
  | closure c => Node.numbersAll c.body
  | transformer t => t.rules.flatMap fun rule => Node.numbersAll rule.body
  | delayed d => d.node.numbers
  | unspecified | nil | boolean _ | char _ | string _ _ | symbol _ | pair _ | vector _ | primitive _
  | form _ => []

/-- The numbers in all frames, pairs and vectors. -/
def Store.numbers (s : Store) : List Number :=
  s.frames.toList.flatMap (fun frame => frame.bindings.flatMap fun binding => binding.2.numbers) ++
    (s.pairs.toList.flatMap (fun pair => pair.head.numbers ++ pair.tail.numbers) ++
      s.vectors.toList.flatMap fun items => items.toList.flatMap Value.numbers)

section Like

variable {L : Likeness}

mutual

theorem Node.Like.numbers : {n m : Node} → Like L n m → ∀ k ∈ n.numbers, L.number k
  | _,_,.number known _ => List.forall_mem_singleton.mpr known
  | _,_,.quote _ inner _ => inner.numbers
  | _,_,.list items _ => LikeAll.numbers items
  | _,_,.string _ _ _ | _,_,.char _ _ | _,_,.boolean _ _ | _,_,.symbol _ _ | _,_,.dot _
  | _,_,.sharp _ => by simp [Node.numbers]

theorem Node.LikeAll.numbers : {ns ms : List Node} → LikeAll L ns ms →
    ∀ k ∈ numbersAll ns, L.number k
  | _,_,.nil => by simp [numbersAll]
  | _,_,.cons head tail => List.forall_mem_append.mpr ⟨head.numbers,LikeAll.numbers tail⟩

end

/-- What holds of the parts of like items holds of all parts of like lists. -/
theorem forall_flatMap {α : Type} {A : α → α → Prop} {parts : α → List Number} {xs ys : List α}
    (rows : List.Forall₂ A xs ys) (known : ∀ {x y}, A x y → ∀ k ∈ parts x, L.number k) :
    ∀ k ∈ xs.flatMap parts, L.number k := by
  induction rows with
  | nil => simp
  | cons head _ ih =>
    rw [List.flatMap_cons]
    exact List.forall_mem_append.mpr ⟨known head,ih⟩

theorem Value.Like.numbers {v w : Value} (like : Like L v w) : ∀ k ∈ v.numbers, L.number k := by
  cases like with
  | number known => exact List.forall_mem_singleton.mpr known
  | closure _ _ _ body => exact Node.LikeAll.numbers body
  | transformer _ _ rules => exact forall_flatMap rules fun rule => Node.LikeAll.numbers rule.body
  | delayed fragment =>
    cases fragment with
    | intro _ node => exact node.numbers
  | unspecified | nil | boolean | char | string | symbol | pair | vector | primitive | form =>
    simp [Value.numbers]

theorem Store.Like.numbers {s t : Store} (like : Like L s t) : ∀ k ∈ s.numbers, L.number k := by
  refine List.forall_mem_append.mpr ⟨?_,List.forall_mem_append.mpr ⟨?_,?_⟩⟩
  · exact forall_flatMap like.frames fun frame =>
      forall_flatMap frame.bindings fun binding => binding.2.numbers
  · exact forall_flatMap like.pairs fun pair =>
      List.forall_mem_append.mpr ⟨pair.head.numbers,pair.tail.numbers⟩
  · exact forall_flatMap like.vectors fun items => forall_flatMap items Value.Like.numbers

theorem Eval.Like.after {α : Type} {A : α → α → Prop} {x y : Eval α} (like : Like L A x y)
    {s t : State} (state : State.Like L s t) : State.Like L (x.after s) (y.after t) := by
  have outcome := like state
  rw [Eval.after,Eval.after]
  generalize x s = left,y t = right at outcome ⊢
  cases outcome with
  | ok _ state => exact state
  | error _ state => exact state

end Like

/-! Texts. -/

mutual

theorem Token.like_canonical : (t : Token) → Like .canonical t t
  | atom kind text _ => .atom kind text trivial
  | list items _ => .list (Token.likeAll_canonical items) trivial
  | quote kind inner _ => .quote kind inner.like_canonical trivial

theorem Token.likeAll_canonical : (ts : List Token) → List.Forall₂ (Like .canonical) ts ts
  | [] => .nil
  | t :: ts => .cons t.like_canonical (Token.likeAll_canonical ts)

end

/-- All literals of a text are canonical. -/
theorem Program.parse_canonical (text : String) (name : Option String) :
    Reads .canonical (Like .canonical) (parse text name) (parse text name) := by
  cases scanned : Token.scan text name with
  | ok tokens => exact ofTokens_like scanned scanned (Token.likeAll_canonical tokens)
  | error e =>
    rw [parse,scanned]
    exact .error (.intro e.fault trivial)

theorem evaluate_canonical (fuel : Nat) (text : String) (name : Option String) (env : FrameId) :
    Eval.Like .canonical (Value.Like .canonical) (evaluate (.ofFuel fuel) text name env)
      (evaluate (.ofFuel fuel) text name env) :=
  evaluate_like (Evaluator.ofFuel_like fuel) (Program.parse_canonical text name) env

/-! Sessions. -/

/-- One step brings in no number that is not canonical. -/
theorem Step.run_canonical {step : Step} {s : State} (byText : step.ByText)
    (state : State.Like .canonical s s) : State.Like .canonical (step.run s) (step.run s) := by
  cases step with
  | evaluate text name env fuel => exact (evaluate_canonical fuel text name env).after state
  | child parent => exact (Store.Like.newFrame state (some parent)).2
  | define => exact byText.elim
  | install | remove => exact state

/-- The numbers that a session in state `s` can show: those it holds, those written in a text, and
those that the evaluation of a text returns. -/
inductive State.Shows (s : State) : Number → Prop where
  | held {k : Number} : k ∈ s.store.numbers → Shows s k
  | literal {text : String} {name : Option String} {p : Program} {k : Number} :
      Program.parse text name = .ok p → k ∈ p.numbers → Shows s k
  | returned {text : String} {name : Option String} {env : FrameId} {fuel : Nat} {v : Value}
      {next : State} {k : Number} : evaluate (.ofFuel fuel) text name env s = .ok v next →
      k ∈ v.numbers → Shows s k

theorem State.Shows.canonical {s : State} {k : Number} (state : State.Like .canonical s s)
    (shows : s.Shows k) : k.Canonical := by
  cases shows with
  | held member => exact Store.Like.numbers state k member
  | @literal text name _ _ parsed member =>
    have read := Program.parse_canonical text name
    rw [parsed] at read
    cases read with
    | ok program => exact Node.LikeAll.numbers program k member
  | @returned text name env fuel _ _ _ result member =>
    have outcome := evaluate_canonical fuel text name env state
    rw [result] at outcome
    cases outcome with
    | ok value _ => exact value.numbers k member

/-- Numbers are always canonical. In every state that evaluations of any texts, in any frames, lead
to from the initial one, every number that is held, written or returned is canonical. So exact
numbers are the same under identity, under comparison and in text exactly if they are the same. -/
theorem State.numbers_canonical {s : State}
    (reaches : Reaches (fun _ step => step.ByText) .initial s) :
    (∀ k, s.Shows k → k.Canonical) ∧
      ∀ a b, s.Shows a → s.Shows b → a.isExact = true → b.isExact = true →
        (a.eqv b = true ↔ a = b) ∧ (a.compare b = some .eq ↔ a = b) ∧ (a.text = b.text ↔ a = b) := by
  have state : State.Like .canonical s s :=
    reaches.keeps (P := fun s => State.Like .canonical s s)
      (fun before byText => Step.run_canonical byText before) State.initial_like
  refine ⟨fun _ => Shows.canonical state,?_⟩
  intro a b left right exactLeft exactRight
  have canonicalLeft := left.canonical state
  have canonicalRight := right.canonical state
  refine ⟨?_,?_,?_⟩
  · exact Number.eqv_eq_true_iff canonicalLeft canonicalRight exactLeft exactRight
  · exact Number.compare_eq_iff canonicalLeft canonicalRight exactLeft exactRight
  · exact ⟨Number.text_inj exactLeft exactRight,congrArg Number.text⟩

/-- A session that holds a fraction written `6/4` and a product that is no word. -/
theorem State.numbers_canonical_overflow :
    ∃ s half, Reaches (fun _ step => step.ByText) .initial s ∧ half = .fraction ⟨3,2,Nat.two_pos⟩ ∧
      half ∈ s.store.numbers ∧ .float 18446744073709552000 ∈ s.store.numbers ∧
      (∀ k, s.Shows k → k.Canonical) ∧ ∀ b, s.Shows b → b.isExact = true →
        (half.eqv b = true ↔ half = b) ∧ (half.compare b = some .eq ↔ half = b) ∧
          (half.text = b.text ↔ half = b) := by
  let step := Step.evaluate "(cons 6/4 (* 9223372036854775807 2))" none Global.frame 9
  have reaches : Reaches (fun _ step => step.ByText) .initial (step.run .initial) :=
    .step step .refl trivial
  have half : .fraction ⟨3,2,Nat.two_pos⟩ ∈ (step.run .initial).store.numbers := by decide +kernel
  have product : .float 18446744073709552000 ∈ (step.run .initial).store.numbers := by
    decide +kernel
  obtain ⟨canonical,same⟩ := numbers_canonical reaches
  exact ⟨_,_,reaches,rfl,half,product,canonical,fun b shown => same _ b (.held half) shown rfl⟩

end MiniScheme
