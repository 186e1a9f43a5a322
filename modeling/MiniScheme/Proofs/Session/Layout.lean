import MiniScheme.Proofs.Eval.Fuel
import MiniScheme.Proofs.Likeness.Evaluator
import MiniScheme.Proofs.Token.Scan

/-! Layout does not matter. Texts whose tokens differ in places only, read under any names, have
like programs, so they come to the same results and fail in the same ways. -/
namespace MiniScheme

/-- Any place may stand for any other. -/
def Likeness.anywhere : Likeness where
  place _ _ := True
  number _ := True
  literal _ := trivial
  integer _ := trivial
  pi := trivial
  arithmetic _ _ _ _ := trivial

namespace Token

mutual

theorem like_of_bare : (t u : Token) → t.bare = u.bare → Like .anywhere t u
  | atom kind text _,atom _ _ _,same => by
    cases same
    exact .atom kind text trivial
  | list items _,list others _,same =>
    .list (like_of_bareAll items others (Token.list.inj same).1) trivial
  | quote kind inner _,quote _ other _,same => by
    obtain ⟨rfl,same,-⟩ := Token.quote.inj same
    exact .quote kind (like_of_bare inner other same) trivial
  | atom _ _ _,list _ _,same | atom _ _ _,quote _ _ _,same | list _ _,atom _ _ _,same
  | list _ _,quote _ _ _,same | quote _ _ _,atom _ _ _,same | quote _ _ _,list _ _,same =>
    Token.noConfusion same

theorem like_of_bareAll : (ts us : List Token) →
    mapPosAll (fun _ => .nowhere) ts = mapPosAll (fun _ => .nowhere) us →
    List.Forall₂ (Like .anywhere) ts us
  | [],[],_ => .nil
  | t :: ts,u :: us,same =>
    have both := List.cons.inj same
    .cons (like_of_bare t u both.1) (like_of_bareAll ts us both.2)
  | [],_ :: _,same | _ :: _,[],same => by simp [mapPosAll] at same

end

end Token

namespace Eval

/-- Results that agree in all but places: the same kind and text of the values, or the same fault,
raised in the same frame and passed through applications in the same frames. -/
inductive Agree : Outcome Value → Outcome Value → Prop where
  | value {v w : Value} {s t : State} : v.kind = w.kind → s.store.text v = t.store.text w →
      State.Like .anywhere s t → Agree (.ok v s) (.ok w t)
  | reading {e f : SyntaxError} {s t : State} : e.fault = f.fault → State.Like .anywhere s t →
      Agree (.error (.reading e) s) (.error (.reading f) t)
  | running {e f : RuntimeError} {s t : State} : e.fault = f.fault → e.env = f.env →
      e.pos.isSome = f.pos.isSome → e.frames.toList.map Prod.snd = f.frames.toList.map Prod.snd →
      State.Like .anywhere s t → Agree (.error (.running e) s) (.error (.running f) t)
  | outOfFuel {s t : State} : State.Like .anywhere s t →
      Agree (.error .outOfFuel s) (.error .outOfFuel t)

theorem Agree.of_like {x y : Outcome Value}
    (like : Outcome.Like .anywhere (Value.Like .anywhere) x y) : Agree x y := by
  cases like with
  | ok value state => exact .value value.kind (Store.Like.text state value) state
  | error failure state =>
    cases failure with
    | outOfFuel => exact .outOfFuel state
    | reading error =>
      obtain ⟨fault,-⟩ := error
      exact .reading rfl state
    | @running e f error =>
      refine .running error.fault error.env ?_ (error.frames.map_eq And.right) state
      have pos := error.pos
      generalize e.pos = x,f.pos = y at pos ⊢
      cases pos <;> rfl

end Eval

/-- Neither layout nor the name of its source changes what a program does. Texts with the same
tokens, up to places, come to agreeing results from the initial state at every depth, so one ends
if the other does. -/
theorem evaluate_layout {text again : String} {name rename : Option String} {ts us : List Token}
    (first : Token.scan text name = .ok ts) (second : Token.scan again rename = .ok us)
    (same : ts.map Token.bare = us.map Token.bare) (fuel : Nat) :
    Eval.Agree (evaluate (.ofFuel fuel) text name Global.frame .initial)
      (evaluate (.ofFuel fuel) again rename Global.frame .initial) := by
  have tokens : List.Forall₂ (Token.Like .anywhere) ts us := by
    apply Token.like_of_bareAll
    rw [Token.mapPosAll_eq_map,Token.mapPosAll_eq_map]
    exact same
  have programs := Program.ofTokens_like first second tokens
  exact .of_like (evaluate_like (Evaluator.ofFuel_like fuel) programs Global.frame State.initial_like)

/-- A call that fails inside a closure, on one line and on two lines under a name. -/
theorem evaluate_layout_call :
    Token.scan "((lambda () x))" none = .ok [.list [.list [.atom .symbol "lambda" ⟨1,3,none⟩,
      .list [] ⟨1,10,none⟩,.atom .symbol "x" ⟨1,13,none⟩] ⟨1,2,none⟩] ⟨1,1,none⟩] ∧
    Token.scan "((lambda ()\n x) )" (some "f") = .ok [.list [.list
      [.atom .symbol "lambda" ⟨1,3,some "f"⟩,.list [] ⟨1,10,some "f"⟩,
      .atom .symbol "x" ⟨2,2,some "f"⟩] ⟨1,2,some "f"⟩] ⟨1,1,some "f"⟩] ∧
    Eval.Agree (evaluate (.ofFuel 9) "((lambda () x))" none Global.frame .initial)
      (evaluate (.ofFuel 9) "((lambda ()\n x) )" (some "f") Global.frame .initial) := by
  have first : Token.scan "((lambda () x))" none = .ok [.list [.list
      [.atom .symbol "lambda" ⟨1,3,none⟩,.list [] ⟨1,10,none⟩,.atom .symbol "x" ⟨1,13,none⟩]
      ⟨1,2,none⟩] ⟨1,1,none⟩] := rfl
  have second : Token.scan "((lambda ()\n x) )" (some "f") = .ok [.list [.list
      [.atom .symbol "lambda" ⟨1,3,some "f"⟩,.list [] ⟨1,10,some "f"⟩,
      .atom .symbol "x" ⟨2,2,some "f"⟩] ⟨1,2,some "f"⟩] ⟨1,1,some "f"⟩] := rfl
  exact ⟨first,second,evaluate_layout first second rfl 9⟩

end MiniScheme
