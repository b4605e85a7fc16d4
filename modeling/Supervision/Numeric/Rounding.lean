/-!
# Rounding a quotient to the nearest whole number

Quotients of naturals are rounded to the nearest natural, a half to the even neighbour. Every exact
decimal this library writes or reads goes through `roundDiv`: lengths of time read from seconds,
numbers written with a fixed count of places.
-/

namespace Supervision.Numeric

/-- `num / den` rounded to the nearest natural, a half to the even neighbour. -/
def roundDiv (num den : Nat) : Nat :=
  let q := num / den
  let twice := 2 * (num % den)
  if twice < den then q
  else if den < twice then q + 1
  else if q % 2 = 0 then q else q + 1

end Supervision.Numeric
