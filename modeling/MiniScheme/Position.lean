/-! Places in a source text. Lines and columns count from one, columns count characters, and
only a line feed starts a new line. -/
namespace MiniScheme

structure Position where
  line : Nat
  column : Nat
  /-- The name the text was read under, if it has one. -/
  source : Option String
  deriving DecidableEq, Repr, Inhabited

namespace Position

def start (source : Option String) : Position := ⟨1, 1, source⟩

/-- The place of nothing in particular: no text has a line zero. -/
def nowhere : Position := ⟨0, 0, none⟩

def advance (p : Position) (c : Char) : Position :=
  if c = '\n' then { p with line := p.line + 1, column := 1 } else { p with column := p.column + 1 }

/-- The place reached by stepping over a whole text. -/
def after (p : Position) (text : List Char) : Position := text.foldl advance p

/-- Line and column, without the name of the source. -/
def lineColumn (p : Position) : String := Nat.repr p.line ++ ":" ++ Nat.repr p.column

def text (p : Position) : String :=
  match p.source with
  | none => p.lineColumn
  | some name => p.lineColumn ++ ", " ++ name

@[simp] theorem after_nil (p : Position) : p.after [] = p := rfl

@[simp] theorem after_cons (p : Position) (c : Char) (cs : List Char) :
    p.after (c :: cs) = (p.advance c).after cs := rfl

theorem after_append (p : Position) (first second : List Char) :
    p.after (first ++ second) = (p.after first).after second := by
  simp [after, List.foldl_append]

end Position
end MiniScheme
