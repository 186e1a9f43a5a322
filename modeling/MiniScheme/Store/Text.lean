import MiniScheme.Number.Text
import MiniScheme.Store.Basic
import MiniScheme.Text.Quoted

/-! The written form of values. A pair or vector that is already being written is shown as an
ellipsis, so that cyclic data have finite texts. -/
namespace MiniScheme

/-- Pairs and vectors, as steps of a path through the store. -/
inductive Cell where
  | pair (id : PairId)
  | vector (id : VectorId)
  deriving DecidableEq, Repr

/-- Where a value is written: on its own, or as what follows in a list. -/
inductive Place where
  | alone | tail
  deriving DecidableEq, Repr

/-- The text of a value that is neither pair nor vector. -/
def Value.atomText : Value → String
  | .unspecified => "#<unspecified>"
  | .nil => "()"
  | .boolean true => "#t"
  | .boolean false => "#f"
  | .char c => "#\\" ++ c.toString
  | .string text _ => Text.quoted text
  | .symbol name => name
  | .number n => n.text
  | .closure _ | .primitive _ => "#<procedure>"
  | .transformer _ | .form _ => "#<macro>"
  | .delayed _ => "#<delayed>"
  | .pair _ | .vector _ => ""

namespace Place

/-- A value other than a list is set off by a dot in tail place. -/
def dotted : Place → String → String
  | alone, text => text
  | tail, text => " . " ++ text

/-- A list that stands alone has parentheses. -/
def enclosed : Place → String → String
  | alone, text => "(" ++ text ++ ")"
  | tail, text => text

/-- Items after the first are set off by a blank. -/
def separator : Place → String
  | alone => ""
  | tail => " "

end Place

namespace Store

/-- Writes a value reached along `path`. The fuel bounds the length of the path. -/
def write (s : Store) : (fuel : Nat) → (path : List Cell) → Place → Value → String
  | 0, _, _, _ => "..."
  | fuel + 1, path, place, v =>
    match v with
    | .pair p =>
      place.enclosed <|
        if .pair p ∈ path then " ..."
        else place.separator ++ s.write fuel (.pair p :: path) .alone (s.head p)
          ++ s.write fuel (.pair p :: path) .tail (s.tail p)
    | .vector i =>
      place.dotted <|
        if .vector i ∈ path then "..."
        else "#(" ++ " ".intercalate ((s.items i).toList.map (s.write fuel (.vector i :: path) .alone))
          ++ ")"
    | .nil => if place = .tail then "" else Value.nil.atomText
    | other => place.dotted other.atomText

/-- A path without repetitions is no longer than there are cells. -/
def text (s : Store) (v : Value) : String := s.write (s.cellCount + 1) [] .alone v

end Store
end MiniScheme
