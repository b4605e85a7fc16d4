import Supervision.Numeric.Binary64

/-!
# The fewest digits that name a number

A floating-point number stands for every real that rounds to it. `Shortest.digits` looks for the
decimal with the fewest digits among those reals, the nearest one when there are several, by exact
arithmetic on naturals: for one digit, two digits and so on up to seventeen it tries the two
neighbours of the value on the grid of that many digits.
-/

namespace Supervision.Numeric.Shortest

/-- A positive decimal `coefficient · 10 ^ power`. -/
structure Decimal where
  coefficient : Nat
  power : Int
deriving DecidableEq, Inhabited

/-- `n · base ^ e` as a quotient. -/
def scaleBy (base : Nat) (e : Int) (q : Nat × Nat) : Nat × Nat :=
  match e with
  | .ofNat k => (q.1 * base.pow k, q.2)
  | .negSucc k => (q.1, q.2 * base.pow (k + 1))

/-- The quotient `a` is smaller than, or equal to, the quotient `b`. -/
def leq (a b : Nat × Nat) : Bool := a.1 * b.2 ≤ b.1 * a.2

/-- The quotient `a` is smaller than the quotient `b`. -/
def lt (a b : Nat × Nat) : Bool := a.1 * b.2 < b.1 * a.2

/-- The two ends of the reals that round to `b`, and whether the ends belong to them. -/
def interval (b : Binary64) : (Nat × Nat) × (Nat × Nat) × Bool :=
  let m := b.significand
  let narrow := m = 1 <<< 52 && decide (-1074 < b.exponent)
  let low := if narrow then (4 * m - 1, 4) else (2 * m - 1, 2)
  (scaleBy 2 b.exponent low, scaleBy 2 b.exponent (2 * m + 1, 2), m % 2 = 0)

/-- The decimal reads back as `b`. -/
def readsBack (b : Binary64) (d : Decimal) : Bool :=
  let (low, high, closed) := interval b
  let v := scaleBy 10 d.power (d.coefficient, 1)
  if closed then leq low v && leq v high else lt low v && lt v high

/-- The nearest decimal on the grid `10 ^ power` that reads back as `b`. -/
def onGrid? (b : Binary64) (power : Int) : Option Decimal :=
  let (num, den) := scaleBy 10 (-power) b.quotient
  let below : Decimal := ⟨num / den, power⟩
  let above : Decimal := ⟨num / den + 1, power⟩
  let nearerBelow := 2 * (num % den) ≤ den
  match below.coefficient != 0 && readsBack b below, readsBack b above with
  | true, true => some (if nearerBelow then below else above)
  | true, false => some below
  | false, true => some above
  | false, false => none

/-- The count of decimal digits before the point of a quotient: the least `k` with
`q < 10 ^ k`. The search starts from an estimate by binary digits. -/
def magnitude (b : Binary64) : Int :=
  let bits : Int := b.significand.log2 + b.exponent
  let guess : Int := bits * 30103 / 100000 - 1
  let below (k : Int) : Bool := lt b.quotient (scaleBy 10 k (1, 1))
  ((List.range 5).map fun (i : Nat) ↦ guess + (i : Int)).find? below |>.getD (guess + 5)

/-- The decimal with the fewest digits that reads back as the positive number `b`. -/
def decimal (b : Binary64) : Decimal :=
  let k := magnitude b
  ((List.range 17).findSome? fun i ↦ onGrid? b (k - (i + 1 : Nat))).getD
    ⟨b.significand, b.exponent⟩

/-- Removes trailing zeros of the coefficient, at most `fuel` of them. -/
def strip : Nat → Decimal → Decimal
  | 0, d => d
  | fuel + 1, d =>
    if d.coefficient % 10 = 0 && d.coefficient ≠ 0 then
      strip fuel ⟨d.coefficient / 10, d.power + 1⟩
    else d

/-- Where numbers are written positionally: with more digits before the point than `low` and at
most `high`; numbers below one have as many fewer as zeros follow the point. -/
structure Range where
  low : Int
  high : Int

/-- Numbers in messages are positional from `0.00001` up to sixteen digits before the point. -/
def Range.messages : Range := ⟨-5, 16⟩

/-- The decimal in positional notation, with at least one place after the point. -/
def positional (d : Decimal) : String :=
  let digits := Nat.toDigits 10 d.coefficient
  match d.power with
  | .ofNat k => String.ofList (digits ++ List.replicate k '0') ++ ".0"
  | .negSucc k =>
    let filled := List.replicate (k + 2 - digits.length) '0' ++ digits
    let whole := filled.length - (k + 1)
    String.ofList (filled.take whole) ++ "." ++ String.ofList (filled.drop whole)

/-- The power of ten of a number: its sign and at least two digits. -/
def powerText (power : Int) : String :=
  (if power < 0 then "e-" else "e+") ++ (if power.natAbs < 10 then "0" else "") ++
    toString power.natAbs

/-- The decimal with its first digit before the point and a signed power of ten. -/
def scientific (d : Decimal) : String :=
  match Nat.toDigits 10 d.coefficient with
  | [] => ""
  | c :: cs =>
    let places := if cs.isEmpty then "" else "." ++ String.ofList cs
    c.toString ++ places ++ powerText (d.power + cs.length)

/-- The decimal in the notation that the range asks for. -/
def written (r : Range) (d : Decimal) : String :=
  let before : Int := (Nat.toDigits 10 d.coefficient).length + d.power
  if r.low < before ∧ before ≤ r.high then positional d else scientific d

/-- A finite number by its fewest digits. -/
def text (x : Float) : String :=
  match Binary64.ofFloat? x with
  | none => if x.isNaN then "NaN" else if x < 0 then "-inf" else "inf"
  | some b =>
    let sign := if b.negative then "-" else ""
    if b.significand = 0 then sign ++ "0.0"
    else sign ++ written .messages (strip 17 (decimal b))

end Supervision.Numeric.Shortest
