import Supervision.Fault
import Supervision.Recording.Sink

/-!
# Running a unit of work

An `Attempt` runs one unit of work for a registration, with or without a token that may cancel it.
Each `look` finds the token cancelled, the work ended, or neither, and settles the attempt in the
first two cases, the token first. An attempt that is dropped while it is open counts as cancelled.
Whichever way it ends, exactly one record is submitted, at its end.

* `look_settled`, `drop_settled` — a settled attempt never changes and submits nothing more.
-/

namespace Supervision

/-- How a unit of work ends. -/
inductive WorkEnd where
  | returned
  | failed (error : WorkError)
  | panicked (payload : Payload)
deriving DecidableEq

namespace WorkEnd

/-- What comes of a unit of work that ended so. -/
def outcome : WorkEnd → Outcome
  | returned => .success
  | failed .cancelled => .cancelled
  | failed (.framework kind message) => .error .framework (.plain kind message)
  | failed (.unclassified chain) => .error .unclassified (chain.failure "unclassified")
  | panicked p => .error .unclassified ⟨"panic", p.message, some ("panicked: " ++ p.message)⟩

end WorkEnd

/-- The log line of an outcome: recognised errors warn, all others are errors with their trace. -/
def Outcome.line? (target : Target) : Outcome → Option LogLine
  | .error .framework detail =>
    some ⟨.warn, detail.message, [("registration", target.text), ("error_type", detail.kind)]⟩
  | .error .unclassified detail =>
    some ⟨.error, "unit of work failed: " ++ detail.message,
      [("registration", target.text), ("error_type", detail.kind),
        ("trace", detail.trace.getD "")]⟩
  | _ => none

/-- Where an attempt stands. -/
inductive Attempt where
  /-- Still running. -/
  | working
  /-- Ended, with what came of it. -/
  | settled (outcome : Outcome)
  /-- Given up by its caller. -/
  | dropped
deriving DecidableEq

namespace Attempt

/-- Looks at a running attempt: it is over when the token is cancelled or the work has ended. The
answer is the attempt after it, and the outcome to record if this look settled it. -/
def look (cancelled : Bool) (ending : Option WorkEnd) (a : Attempt) : Attempt × Option Outcome :=
  match a with
  | working =>
    if cancelled then (settled .cancelled, some .cancelled)
    else
      match ending with
      | some e => (settled e.outcome, some e.outcome)
      | none => (working, none)
  | _ => (a, none)

/-- The caller gives up. -/
def drop (a : Attempt) : Attempt × Option Outcome :=
  match a with
  | working => (dropped, some .cancelled)
  | _ => (a, none)

/-- The attempt is over. -/
def isOver (a : Attempt) : Bool := a ≠ working

theorem look_settled {c : Bool} {e : Option WorkEnd} {o : Outcome} :
    (settled o).look c e = (settled o, none) := rfl

theorem drop_settled {o : Outcome} : (settled o).drop = (settled o, none) := rfl

/-- An outcome is recorded by the look or the drop that ends the attempt, and by no other. -/
theorem look_snd_isSome_iff {c : Bool} {e : Option WorkEnd} {a : Attempt} :
    (a.look c e).2.isSome ↔ a.isOver = false ∧ (a.look c e).1.isOver = true := by
  cases a <;> cases c <;> cases e <;> simp [look, isOver]

theorem drop_snd_isSome_iff {a : Attempt} :
    a.drop.2.isSome ↔ a.isOver = false ∧ a.drop.1.isOver = true := by
  cases a <;> simp [drop, isOver]

end Attempt

end Supervision
