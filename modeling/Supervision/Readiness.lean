import Supervision.Time.Span

/-!
# Waiting for readiness

A `Wait` waits for several resources at once, each until it is seen ready, until the common
deadline, or until the shutdown begins. Every `look` settles what can be settled at that moment;
what is settled stays as it is, so a resource that was seen ready counts as ready even if it goes
unready before the others follow.

* `look_settled` — a settled entry never changes.
* `result?_eq_some_ready_iff` — the wait succeeds exactly when every entry was seen ready.
-/

namespace Supervision

/-! ### What is reported -/

/-- A resource that was not seen ready when a wait ended. -/
structure Pending where
  /-- Its name. -/
  name : String
  /-- Why it was not ready then. -/
  reason : Option String
deriving DecidableEq

namespace Pending

/-- Text of a pending resource. -/
def text (p : Pending) : String :=
  match p.reason with
  | some r => p.name ++ " (" ++ r ++ ")"
  | none => p.name

/-- Text of pending resources. -/
def list (ps : List Pending) : String := ", ".intercalate (ps.map text)

end Pending

/-! ### The wait -/

/-- How the wait for one resource ended. -/
inductive WaitEnd where
  /-- It was seen ready. -/
  | ready
  /-- The deadline came first. -/
  | timedOut
  /-- The shutdown came first. -/
  | shutdown
deriving DecidableEq

/-- How a wait for several resources ended. -/
inductive WaitResult where
  /-- Every one was seen ready. -/
  | ready
  /-- These were not, by their places. -/
  | timedOut (places : List Nat)
  /-- The shutdown came first. -/
  | shutdown
deriving DecidableEq

/-- A wait for resources by their places, repetitions allowed. -/
structure Wait where
  /-- The moment at which it gives up, in milliseconds. -/
  deadline : Nat
  /-- What it waits for, and how that ended if it has. -/
  entries : List (Nat × Option WaitEnd)
deriving DecidableEq

namespace Wait

/-- A wait that begins now. -/
def start (now : Nat) (timeout : Span) (places : List Nat) : Wait where
  deadline := now + timeout.millisUp
  entries := places.map (·, none)

/-- How a wait for one resource ends now, if it does: the shutdown is looked for first, then
readiness, then the deadline. -/
def endNow? (deadline now : Nat) (shutdown ready : Bool) : Option WaitEnd :=
  if shutdown then some .shutdown
  else if ready then some .ready
  else if deadline ≤ now then some .timedOut
  else none

/-- Settles what ends now. -/
def look (now : Nat) (shutdown : Bool) (isReady : Nat → Bool) (w : Wait) : Wait :=
  { w with
    entries := w.entries.map fun (p, e) ↦ (p, e.or (endNow? w.deadline now shutdown (isReady p))) }

/-- The end of the wait, once every entry is settled. -/
def result? (w : Wait) : Option WaitResult :=
  if w.entries.all (·.2.isSome) then
    some <|
      if w.entries.any (·.2 == some .shutdown) then .shutdown
      else
        match w.entries.filter (·.2 != some .ready) with
        | [] => .ready
        | late => .timedOut (late.map (·.1))
  else none

theorem look_settled {now : Nat} {shutdown : Bool} {isReady : Nat → Bool} {w : Wait} {p : Nat}
    {e : WaitEnd} (h : (p, some e) ∈ w.entries) :
    (p, some e) ∈ (w.look now shutdown isReady).entries := by
  simp only [look, List.mem_map]
  exact ⟨(p, some e), h, by simp⟩

theorem result?_eq_some_ready_iff {w : Wait} :
    w.result? = some .ready ↔ ∀ x ∈ w.entries, x.2 = some .ready := by
  unfold result?
  constructor
  · intro h x hx
    split at h
    · split at h
      · cases h
      · split at h
        · rename_i hnil
          have := List.filter_eq_nil_iff.1 hnil x hx
          simpa using this
        · cases h
    · cases h
  · intro h
    have hall : w.entries.all (·.2.isSome) = true := by
      simp only [List.all_eq_true]
      intro x hx
      simp [h x hx]
    have hany : w.entries.any (·.2 == some .shutdown) = false := by
      simp only [List.any_eq_false]
      intro x hx
      simp [h x hx]
    have hnil : w.entries.filter (·.2 != some .ready) = [] := by
      simp only [List.filter_eq_nil_iff]
      intro x hx
      simp [h x hx]
    simp [hall, hany, hnil]

end Wait

end Supervision
