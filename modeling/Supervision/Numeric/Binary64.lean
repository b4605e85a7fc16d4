import Supervision.Numeric.Rounding

/-!
# Exact values of 64-bit binary numbers

A finite floating-point number is a sign and a product `m · 2^e` of naturals and powers of two.
`Binary64.ofFloat?` reads that product off the bits, so every later rounding is done exactly, on
naturals.
-/

namespace Supervision.Numeric

/-- A finite floating-point number, taken apart: `± significand · 2 ^ exponent`. -/
structure Binary64 where
  /-- The sign bit is set. -/
  negative : Bool
  /-- The whole significand, the hidden bit included. -/
  significand : Nat
  /-- The power of two it is scaled by. -/
  exponent : Int
deriving DecidableEq, Inhabited

namespace Binary64

/-- The exact value of a finite number; infinities and undefined values have none. -/
def ofFloat? (x : Float) : Option Binary64 :=
  let bits : Nat := x.toBits.toNat
  let raised : Nat := (bits >>> 52) % 2048
  let fraction : Nat := bits % (1 <<< 52)
  let negative := bits >>> 63 == 1
  if raised = 2047 then none
  else if raised = 0 then some ⟨negative, fraction, -1074⟩
  else some ⟨negative, fraction + (1 <<< 52), (raised : Int) - 1075⟩

/-- The magnitude as a quotient `numerator / denominator`. -/
def quotient (b : Binary64) : Nat × Nat :=
  match b.exponent with
  | .ofNat e => (b.significand <<< e, 1)
  | .negSucc e => (b.significand, 1 <<< (e + 1))

/-- The magnitude times `scale`, rounded to the nearest natural, a half to even. -/
def scaled (b : Binary64) (scale : Nat) : Nat :=
  roundDiv (b.quotient.1 * scale) b.quotient.2

end Binary64

end Supervision.Numeric
