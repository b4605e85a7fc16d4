import Supervision.Numeric.Binary64

/-!
# Numbers with six places

Averages and growth factors are shown with exactly six digits after the point, rounded from the
exact value, a half to the even neighbour.
-/

namespace Supervision.Numeric

/-- A natural written with at least `width` digits, filled with zeros on the left. -/
def padded (width n : Nat) : String :=
  let digits := Nat.toDigits 10 n
  String.ofList (List.replicate (width - digits.length) '0' ++ digits)

/-- `units` millionths as whole part, point and six places. -/
def millionths (units : Nat) : String :=
  toString (units / 1000000) ++ "." ++ padded 6 (units % 1000000)

/-- The number with six places after the point. -/
def sixPlaces (x : Float) : String :=
  match Binary64.ofFloat? x with
  | some b => (if b.negative then "-" else "") ++ millionths (b.scaled 1000000)
  | none => if x.isNaN then "nan" else if x < 0 then "-inf" else "inf"

end Supervision.Numeric
