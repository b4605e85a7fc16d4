import Supervision.Event

/-!
# The one shutdown of a process

Many may ask for the shutdown: a termination signal, a caller, a failure no restart mends. The first
request is admitted and stays; every later one changes nothing.

* `request_fst_iff` — a request is admitted exactly when none was before.
* `cause_request` — the admitted cause never changes.
-/

namespace Supervision

/-- What began the shutdown. -/
inductive Cause where
  /-- A termination signal. -/
  | signal
  /-- A caller asked for it. -/
  | requested (reason : String)
  /-- A resource crashed or ran out of restarts. -/
  | escalated (resource reason : String)
deriving DecidableEq

namespace Cause

/-- Text of a cause. -/
def text : Cause → String
  | signal => "termination signal"
  | requested reason => "requested: " ++ reason
  | escalated resource reason => resource ++ ": " ++ reason

end Cause

/-- The state of the shutdown: the admitted cause, if there is one. -/
structure Shutdown where
  /-- What began it. -/
  cause : Option Cause := none
deriving DecidableEq, Inhabited

namespace Shutdown

/-- The shutdown has begun. -/
def isRequested (s : Shutdown) : Bool := s.cause.isSome

/-- Asks for the shutdown: whether this began it, the state after, and what is published. -/
def request (c : Cause) (s : Shutdown) : Bool × Shutdown × List Event :=
  match s.cause with
  | some _ => (false, s, [])
  | none => (true, ⟨some c⟩, [.shutdownRequested c.text])

theorem request_fst_iff {c : Cause} {s : Shutdown} :
    (s.request c).1 = true ↔ s.isRequested = false := by
  unfold request isRequested
  split <;> simp_all

theorem cause_request {c d : Cause} {s : Shutdown} (h : s.cause = some d) :
    (s.request c).2.1.cause = some d := by
  simp [request, h]

theorem isRequested_request (c : Cause) (s : Shutdown) :
    (s.request c).2.1.isRequested = true := by
  unfold request isRequested
  split <;> simp_all

end Shutdown

end Supervision
