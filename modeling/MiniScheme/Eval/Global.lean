import MiniScheme.Eval.Interpreter

/-! The state every session starts from: one outermost frame with the built-in names. -/
namespace MiniScheme

namespace Global

/-- The outermost frame. -/
def frame : FrameId := ⟨0⟩

def bindings : List (String × Value) :=
  [("PI", .number (.float 3.141592653589793)), ("nil", .nil)]
    ++ SpecialForm.all.map (fun f => (f.name, .form f))
    ++ Primitive.all.map (fun p => (p.name, .primitive p))

end Global

def Store.initial : Store := { Store.empty with frames := #[⟨none, Global.bindings⟩] }

def State.initial : State := ⟨.initial, .none⟩

end MiniScheme
