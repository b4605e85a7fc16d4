import Supervision.Numeric.Fixed

/-!
# Lengths of time

A `Span` is a whole count of nanoseconds. Settings give spans in seconds as floating-point numbers;
timers round them **up** to whole milliseconds, reports round them **down**.

* `ofSeconds?` takes the nearest nanosecond, a half to the even neighbour, and refuses negative
  numbers and everything from `2^64` seconds on (`seconds_lt_of_ofSeconds?`).
-/

namespace Supervision

/-- A length of time in nanoseconds. -/
structure Span where
  /-- Nanoseconds in all. -/
  nanos : Nat
deriving DecidableEq, Inhabited

namespace Span

/-- Nanoseconds in a second. -/
def perSecond : Nat := 1000000000

/-- `s` seconds and `n` nanoseconds. -/
def ofParts (s n : Nat) : Span := ⟨s * perSecond + n⟩

/-- Whole seconds. -/
def ofSecs (s : Nat) : Span := ofParts s 0

/-- Whole milliseconds. -/
def ofMillis (ms : Nat) : Span := ⟨ms * 1000000⟩

/-- Seconds, the rest dropped. -/
def seconds (d : Span) : Nat := d.nanos / perSecond

/-- Nanoseconds beyond the whole seconds. -/
def subsec (d : Span) : Nat := d.nanos % perSecond

/-- Milliseconds, the rest dropped. -/
def millis (d : Span) : Nat := d.nanos / 1000000

/-- Milliseconds, a started one counted as whole: how long a timer runs. -/
def millisUp (d : Span) : Nat := (d.nanos + 999999) / 1000000

/-- Largest value of a 64-bit word. -/
def wordMax : Nat := UInt64.size - 1

/-- Whole milliseconds, held at the largest 64-bit word. -/
def millisWord (d : Span) : Nat := min d.millis wordMax

/-- Seconds as a floating-point number: whole seconds plus the fraction, each rounded once. -/
def toSeconds (d : Span) : Float :=
  Float.ofNat d.seconds + Float.ofNat d.subsec / 1e9

/-- Milliseconds as a floating-point number. -/
def toMillis (d : Span) : Float := d.toSeconds * 1000.0

instance : LE Span := ⟨fun a b ↦ a.nanos ≤ b.nanos⟩
instance : LT Span := ⟨fun a b ↦ a.nanos < b.nanos⟩
instance (a b : Span) : Decidable (a ≤ b) := inferInstanceAs (Decidable (a.nanos ≤ b.nanos))
instance (a b : Span) : Decidable (a < b) := inferInstanceAs (Decidable (a.nanos < b.nanos))

theorem le_iff {a b : Span} : a ≤ b ↔ a.nanos ≤ b.nanos := Iff.rfl

instance : Max Span := ⟨fun a b ↦ if a ≤ b then b else a⟩

/-! ### Reading seconds -/

/-- Why a number of seconds is no span. -/
inductive Unreadable where
  /-- Below zero. -/
  | negative
  /-- From `2^64` seconds on, infinite or undefined. -/
  | outOfRange
deriving DecidableEq

/-- What is said of a number of seconds that is no span. -/
def Unreadable.message : Unreadable → String
  | .negative => "cannot convert float seconds to Duration: value is negative"
  | .outOfRange =>
    "cannot convert float seconds to Duration: value is either too big or NaN"

/-- The span nearest to a number of seconds, a half nanosecond to the even neighbour. -/
def ofSeconds? (x : Float) : Except Unreadable Span :=
  match Numeric.Binary64.ofFloat? x with
  | some b =>
    if b.negative && b.significand != 0 then .error .negative
    else
      let d : Span := ⟨b.scaled perSecond⟩
      if d.seconds < UInt64.size then .ok d else .error .outOfRange
  | none => if x < 0 then .error .negative else .error .outOfRange

/-- A span that was read has fewer than `2^64` seconds. -/
theorem seconds_lt_of_ofSeconds? {x : Float} {d : Span} (h : ofSeconds? x = .ok d) :
    d.seconds < UInt64.size := by
  unfold ofSeconds? at h
  split at h
  · split at h
    · cases h
    · simp only at h
      split at h
      · cases h; assumption
      · cases h
  · split at h <;> cases h

/-! ### Writing -/

/-- `n` written as a fraction of `width` digits, without trailing zeros and without the point when
nothing is left. -/
def fraction (width n : Nat) : String :=
  let kept := ((Numeric.padded width n).toList.reverse.dropWhile (· == '0')).reverse
  if kept.isEmpty then "" else "." ++ String.ofList kept

/-- The span in the largest of the units `s`, `ms`, `µs`, `ns` that gives a whole part. -/
def text (d : Span) : String :=
  if 0 < d.seconds then toString d.seconds ++ fraction 9 d.subsec ++ "s"
  else if 1000000 ≤ d.nanos then
    toString d.millis ++ fraction 6 (d.nanos % 1000000) ++ "ms"
  else if 1000 ≤ d.nanos then
    toString (d.nanos / 1000) ++ fraction 3 (d.nanos % 1000) ++ "µs"
  else toString d.nanos ++ "ns"

end Span

end Supervision
