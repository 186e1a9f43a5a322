import MiniScheme.Store.Basic

/-! Equality of structure: strings by text, numbers by value, pairs and vectors by their contents,
all else by identity. -/
namespace MiniScheme.Store

/-- Compares two values along paths of at most `fuel` steps. -/
def sameWithin (s : Store) : (fuel : Nat) → Value → Value → Bool
  | 0, _, _ => false
  | fuel + 1, a, b =>
    match a, b with
    | .string x _, .string y _ => x == y
    | .number x, .number y => x.same y
    | .pair p, .pair q =>
      p == q || (s.sameWithin fuel (s.head p) (s.head q) && s.sameWithin fuel (s.tail p) (s.tail q))
    | .vector i, .vector j =>
      i == j || ((s.items i).size == (s.items j).size &&
        ((s.items i).toList.zip (s.items j).toList).all fun both => s.sameWithin fuel both.1 both.2)
    | _, _ => a.eqv b

/-- Two paths that run in step through the store repeat a pair of cells after at most this many
steps, so a difference that can be found is found. -/
def same (s : Store) (a b : Value) : Bool :=
  s.sameWithin ((s.cellCount + 1) * (s.cellCount + 1) + 1) a b

end MiniScheme.Store
