import MiniScheme.Decimal.Shortest

/-! How decimal digits are laid out: positionally within a range of magnitudes, with an exponent
outside it. -/
namespace MiniScheme.Decimal

structure Layout where
  /-- Positional notation is used when the number of digits before the point is in this range. -/
  leastPoint : Int
  mostPoint : Int
  exponentMark : String
  tie : Tie
  nan : String
  infinity : String
  deriving Repr

namespace Layout

def signed (negative : Bool) (text : String) : String := if negative then "-" ++ text else text

def digitText (n : Nat) : List Char := Nat.toDigits 10 n

/-- Positional notation with at least one digit on either side of the point, which stands after
`point` digits. -/
def positional (digits : List Char) (point : Int) : String :=
  if point ≤ 0 then
    "0." ++ String.ofList (List.replicate (-point).toNat '0' ++ digits)
  else
    let whole := digits.take point.toNat
    let padding := List.replicate (point.toNat - digits.length) '0'
    let part := digits.drop point.toNat
    String.ofList (whole ++ padding) ++ "." ++ (if part.isEmpty then "0" else String.ofList part)

/-- One digit, the others behind a point if there are any, and the exponent. -/
def exponential (layout : Layout) (digits : List Char) (exponent : Int) : String :=
  let first := String.ofList (digits.take 1)
  let others := digits.drop 1
  let fraction := if others.isEmpty then "" else "." ++ String.ofList others
  first ++ fraction ++ layout.exponentMark ++ Int.repr exponent

def scientific (layout : Layout) (s : Scientific) : String :=
  let digits := digitText s.digits
  let point := (digits.length : Int) + s.exponent
  if layout.leastPoint ≤ point ∧ point ≤ layout.mostPoint then positional digits point
  else layout.exponential digits (point - 1)

def float (layout : Layout) (x : Float) : String :=
  match Shape.ofFloat x with
  | .nan => layout.nan
  | .infinite negative => signed negative layout.infinity
  | .zero negative => signed negative "0.0"
  | .finite negative interval =>
    signed negative (layout.scientific ((shortest layout.tie interval).getD ⟨0, 0⟩))

end Layout
end MiniScheme.Decimal
