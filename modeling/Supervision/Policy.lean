import Supervision.Time.Span

/-!
# How long to wait before a restart

Delays grow by a constant factor from one restart to the next, up to a limit; jitter then spreads
restarts that fall together. The delay depends on the count of restarts alone, so jitter never
feeds back.

* `Jitter.bounds_apply` — whatever is rolled, a jittered delay lies between its two bounds.
-/

namespace Supervision

/-- How a delay is spread. -/
inductive Jitter where
  /-- Not at all. -/
  | none
  /-- Anywhere between nothing and the delay. -/
  | full
  /-- Anywhere between half the delay and the delay. -/
  | equal
deriving DecidableEq, Inhabited

namespace Jitter

/-- The name of a way of spreading. -/
def name : Jitter → String
  | none => "none"
  | full => "full"
  | equal => "equal"

/-- Every way of spreading. -/
def all : List Jitter := [none, full, equal]

/-- The smallest and the largest delay that jitter may give. Delays under a millisecond are kept;
others become whole milliseconds. -/
def bounds (j : Jitter) (d : Span) : Span × Span :=
  let ms := d.millisWord
  if ms = 0 then (d, d)
  else
    match j with
    | none => (d, d)
    | full => (.ofMillis 0, .ofMillis ms)
    | equal => (.ofMillis (ms / 2), .ofMillis (ms / 2 + ms / 2))

/-- The delay after a roll of the dice. -/
def apply (j : Jitter) (roll : Nat) (d : Span) : Span :=
  let ms := d.millisWord
  if ms = 0 then d
  else
    match j with
    | none => d
    | full => .ofMillis (roll % (ms + 1))
    | equal => .ofMillis (ms / 2 + roll % (ms / 2 + 1))

@[simp] theorem apply_none (roll : Nat) (d : Span) : none.apply roll d = d := by
  simp [apply]

/-- A jittered delay lies between its bounds. -/
theorem bounds_apply (j : Jitter) (roll : Nat) (d : Span) :
    (j.bounds d).1 ≤ j.apply roll d ∧ j.apply roll d ≤ (j.bounds d).2 := by
  unfold bounds apply
  generalize d.millisWord = m
  by_cases h : m = 0
  · simp [h, Span.le_iff]
  · have hfull : roll % (m + 1) < m + 1 := Nat.mod_lt _ (by omega)
    have hhalf : roll % (m / 2 + 1) < m / 2 + 1 := Nat.mod_lt _ (by omega)
    cases j <;> simp only [h, if_false, Span.ofMillis, Span.le_iff]
    · exact ⟨Nat.le_refl _, Nat.le_refl _⟩
    · omega
    · omega

/-- What is certain about many jittered delays. -/
structure Spread where
  /-- None is longer than the delay. -/
  atMostDelay : Bool
  /-- None is shorter than half the delay, in whole milliseconds. -/
  atLeastHalf : Bool
  /-- All are whole milliseconds. -/
  wholeMillis : Bool
  /-- They differ. -/
  varies : Bool

/-- What is certain about many jittered delays, read off their bounds. -/
def spread (j : Jitter) (d : Span) : Spread :=
  let (low, high) := j.bounds d
  { atMostDelay := high ≤ d
    atLeastHalf := d.millis / 2 ≤ low.millis
    wholeMillis := low.nanos % 1000000 == 0 && high.nanos % 1000000 == 0
    varies := low != high }

end Jitter

/-- Growing delays between restarts. -/
structure Backoff where
  /-- Delay before the first restart. -/
  base : Span
  /-- Growth from one restart to the next. -/
  multiplier : Float
  /-- Upper bound of every delay. -/
  max : Span
  /-- How delays are spread. -/
  jitter : Jitter
deriving BEq, Inhabited

namespace Backoff

/-- A second at first, doubled each time, a minute at most, not spread. -/
def standard : Backoff where
  base := .ofSecs 1
  multiplier := 2.0
  max := .ofSecs 60
  jitter := .none

/-- Multiplies `acc` by `x ^ n`, by squaring. -/
def power (x : Float) (n : Nat) (acc : Float) : Float :=
  let acc := if n % 2 = 1 then acc * x else acc
  if n / 2 = 0 then acc else power (x * x) (n / 2) acc
termination_by n
decreasing_by omega

/-- Largest exponent of growth. -/
def maxExponent : Nat := 1 <<< 31 - 1

/-- The delay after so many restarts, before it is spread. A growth that is negative, undefined or
beyond the bound gives the bound; a bound of `2^64` seconds after rounding is out of range. -/
def steady (b : Backoff) (attempts : Nat) : Except Span.Unreadable Span :=
  let secs := b.base.toSeconds * power b.multiplier (min attempts maxExponent) 1.0
  if !secs.isFinite || secs < 0.0 || secs > b.max.toSeconds then .ok b.max
  else Span.ofSeconds? secs

/-- The delay before the restart that follows `attempts` earlier ones. -/
def delay (b : Backoff) (roll attempts : Nat) : Except Span.Unreadable Span :=
  (b.steady attempts).map (b.jitter.apply roll)

end Backoff

end Supervision
