import Supervision.Numeric.Fixed
import Supervision.Time.Span

/-!
# Moments of the calendar

A `Stamp` counts nanoseconds from the start of 1970, universal time. The store keeps microseconds,
rounded down. Moments have to lie in the years `-262143` to `262142`.

* `Stamp.text` writes a moment as date and time of day, with the fewest of 0, 3, 6 or 9 places that
  are exact.
-/

namespace Supervision

/-- A moment in nanoseconds from the start of 1970. -/
structure Stamp where
  /-- Nanoseconds, negative before 1970. -/
  nanos : Int
deriving DecidableEq, Inhabited

namespace Stamp

/-- The moment of a count of microseconds. -/
def ofMicros (us : Int) : Stamp := ⟨us * 1000⟩

/-- The moment of seconds and nanoseconds. -/
def ofParts (s : Int) (n : Nat) : Stamp := ⟨s * 1000000000 + n⟩

/-- Whole microseconds, rounded down. -/
def micros (t : Stamp) : Int := t.nanos.fdiv 1000

/-- The earliest moment, in seconds. -/
def minSeconds : Int := -8334601228800

/-- The first second behind the latest moment. -/
def endSeconds : Int := 8210266876800

/-- The moment lies in the calendar. -/
def inRange (t : Stamp) : Bool :=
  minSeconds * 1000000000 ≤ t.nanos && t.nanos < endSeconds * 1000000000

/-- A stored count of microseconds that is a moment of the calendar. -/
def isMicros (us : Int) : Bool := (ofMicros us).inRange

/-- Largest span that can be taken off a moment: `2^63 - 1` milliseconds. -/
def maxStep : Nat := (1 <<< 63 - 1) * 1000000

/-- The moment a span earlier, where there is one. -/
def before? (t : Stamp) (d : Span) : Option Stamp :=
  let s : Stamp := ⟨t.nanos - d.nanos⟩
  if d.nanos ≤ maxStep && s.inRange then some s else none

/-! ### The calendar -/

/-- Year, month and day of a count of days from the start of 1970. Years are counted from March, so
that the leap day is the last of its year. -/
def date (days : Int) : Int × Nat × Nat :=
  let z := days + 719468
  let era := z.fdiv 146097
  let dayOfEra := (z - era * 146097).toNat
  let yearOfEra :=
    (dayOfEra - dayOfEra / 1460 + dayOfEra / 36524 - dayOfEra / 146096) / 365
  let dayOfYear := dayOfEra - (365 * yearOfEra + yearOfEra / 4 - yearOfEra / 100)
  let shifted := (5 * dayOfYear + 2) / 153
  let day := dayOfYear - (153 * shifted + 2) / 5 + 1
  let month := if shifted < 10 then shifted + 3 else shifted - 9
  let year : Int := yearOfEra + era * 400 + (if month ≤ 2 then 1 else 0)
  (year, month, day)

/-- A year with at least four digits, signed outside 0 to 9999. -/
def yearText (y : Int) : String :=
  let digits := Numeric.padded 4 y.natAbs
  if y < 0 then "-" ++ digits else if 9999 < y then "+" ++ digits else digits

/-- The fewest of 0, 3, 6 or 9 places that show `n` nanoseconds exactly. -/
def places (n : Nat) : String :=
  if n = 0 then ""
  else if n % 1000000 = 0 then "." ++ Numeric.padded 3 (n / 1000000)
  else if n % 1000 = 0 then "." ++ Numeric.padded 6 (n / 1000)
  else "." ++ Numeric.padded 9 n

/-- Date and time of day of a moment. -/
def text (t : Stamp) : String :=
  let seconds := t.nanos.fdiv 1000000000
  let sub := (t.nanos.fmod 1000000000).toNat
  let (year, month, day) := date (seconds.fdiv 86400)
  let ofDay := (seconds.fmod 86400).toNat
  let two := Numeric.padded 2
  yearText year ++ "-" ++ two month ++ "-" ++ two day ++ "T" ++ two (ofDay / 3600) ++ ":"
    ++ two (ofDay / 60 % 60) ++ ":" ++ two (ofDay % 60) ++ places sub ++ "Z"

end Stamp

end Supervision
