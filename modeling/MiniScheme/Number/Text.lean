import MiniScheme.Decimal.Layout
import MiniScheme.Number.Basic

/-! The written form of numbers. -/
namespace MiniScheme.Number

/-- Floats are written with the fewest digits that read back, a tie going up, positionally from
`0.0001` up to, but not including, ten to the sixteenth. -/
def floatLayout : Decimal.Layout :=
  { leastPoint := -3, mostPoint := 16, exponentMark := "e", tie := .up, nan := "NaN", infinity := "inf" }

def floatText (x : Float) : String := floatLayout.float x

/-- A negative imaginary part brings its own sign. -/
def text : Number → String
  | integer i => Int.repr i
  | fraction r => Int.repr r.num ++ "/" ++ Nat.repr r.den
  | float x => floatText x
  | complex re im =>
    floatText re ++ (if im < 0.0 then "" else "+") ++ floatText im ++ "i"
  | nan => "+nan.0"
  | infinite => "+inf.0"

end MiniScheme.Number
