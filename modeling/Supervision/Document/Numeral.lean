/-!
# Numbers in documents

A number is written as an optional sign, digits before the point, digits after it and a power of
ten. `Written.value` is what it stands for:

* without point and power, and within 64 bits, a **whole** number;
* otherwise a floating-point number, made from the first digits that fit 64 bits by one
  multiplication or division with a power of ten;
* nothing, when it is too large for a floating-point number.

Minus zero is the floating-point one.
-/

namespace Supervision.Document

/-- What a written number stands for. -/
inductive Numeral where
  /-- A whole number of at most 64 bits. -/
  | whole (n : Int)
  /-- A floating-point number. -/
  | real (x : Float)
  /-- Beyond the largest floating-point number. -/
  | tooLarge
deriving Inhabited

/-- A number as it is written. -/
structure Written where
  /-- It has a minus sign. -/
  negative : Bool
  /-- Digits before the point. -/
  whole : List Nat
  /-- Digits after the point. -/
  places : Option (List Nat)
  /-- Minus sign and digits of the power of ten. -/
  power : Option (Bool × List Nat)

namespace Written

/-- Largest natural of 64 bits. -/
def limit : Nat := UInt64.size - 1

/-- Largest power of ten that is read digit by digit. -/
def powerLimit : Nat := 1 <<< 31 - 1

/-- Appends digits while the result fits 64 bits; also the digits left over. -/
def gather (acc : Nat) : List Nat → Nat × List Nat
  | [] => (acc, [])
  | d :: ds => if acc * 10 + d ≤ limit then gather (acc * 10 + d) ds else (acc, d :: ds)

/-- `f · 10 ^ e` by one multiplication or division, or by several divisions when `e` is below
`-308`. Nothing when the result is infinite. -/
def scaleTen (f : Float) (e : Int) : Option Float :=
  if f == 0.0 then some f
  else if e > 308 then none
  else if 0 ≤ e then
    let r := f * Float.ofScientific 1 false e.toNat
    if r.isInf then none else some r
  else if -308 ≤ e then some (f / Float.ofScientific 1 false (-e).toNat)
  else scaleTen (f / 1e308) (e + 308)
termination_by (-e).toNat
decreasing_by omega

/-- The sign applied. -/
def signed (negative : Bool) (f : Float) : Float := if negative then -f else f

/-- The floating-point number of a significand and a power of ten. -/
def real (negative : Bool) (significand : Nat) (power : Int) : Numeral :=
  match scaleTen (Float.ofNat significand) power with
  | some f => .real (signed negative f)
  | none => .tooLarge

/-- The whole number, if it fits 64 bits with its sign; minus zero does not. -/
def integer (negative : Bool) (n : Nat) : Numeral :=
  if !negative then .whole n
  else if n = 0 ∨ 1 <<< 63 < n then .real (-(Float.ofNat n))
  else .whole (-(n : Int))

/-- What the number stands for. -/
def value (w : Written) : Numeral :=
  let (head, left) := gather 0 w.whole
  let (significand, used) :=
    match w.places with
    | some ds => let (s, rest) := gather head ds; (s, ds.length - rest.length)
    | none => (head, 0)
  let point : Int := (left.length : Int) - used
  match w.power with
  | some (minus, ds) =>
    let p := ds.foldl (fun a d ↦ a * 10 + d) 0
    if powerLimit < p then
      if significand ≠ 0 ∧ minus = false then .tooLarge else .real (signed w.negative 0.0)
    else real w.negative significand (if minus then point - p else point + p)
  | none =>
    if w.places.isNone ∧ left = [] then integer w.negative significand
    else real w.negative significand point

end Written

end Supervision.Document
