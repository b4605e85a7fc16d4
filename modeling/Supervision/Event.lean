import Supervision.Failure
import Supervision.Status
import Supervision.Time.Span

/-!
# Events

What happens in a supervised process is published as events. An `Event` has a kind and whatever of
the optional fields its kind sets; the move of a status travels as a payload of its own.
-/

namespace Supervision

/-- What an event tells. -/
inductive EventKind where
  /-- A resource changed its status. -/
  | transition
  /-- A resource became ready, or stopped being so. -/
  | readinessChanged
  /-- A restart was put on the calendar. -/
  | restartScheduled
  /-- A restarted resource runs and is ready; its count of restarts begins anew. -/
  | restartRecovered
  /-- A resource failed more often than it may. -/
  | restartExhausted
  /-- The shutdown began. -/
  | shutdownRequested
  /-- Everything stopped in time. -/
  | allStoppedWithin
  /-- Something did not stop in time. -/
  | graceExceeded
  /-- A subscriber panicked over an event. -/
  | subscriberPanicked
  /-- A subscriber had no room for an event. -/
  | subscriberOverflow
deriving DecidableEq, Inhabited

namespace EventKind

/-- The name of a kind in answers. -/
def name : EventKind → String
  | transition => "transition"
  | readinessChanged => "readiness_changed"
  | restartScheduled => "restart_scheduled"
  | restartRecovered => "restart_recovered"
  | restartExhausted => "restart_exhausted"
  | shutdownRequested => "shutdown_requested"
  | allStoppedWithin => "all_stopped_within"
  | graceExceeded => "grace_exceeded"
  | subscriberPanicked => "subscriber_panicked"
  | subscriberOverflow => "subscriber_overflow"

/-- Every kind. -/
def all : List EventKind :=
  [transition, readinessChanged, restartScheduled, restartRecovered, restartExhausted,
    shutdownRequested, allStoppedWithin, graceExceeded, subscriberPanicked, subscriberOverflow]

/-- The kind of a name. -/
def ofName? (s : String) : Option EventKind := all.find? (·.name == s)

end EventKind

/-- One change of status of one resource. -/
structure Move where
  /-- The resource. -/
  resource : String
  /-- Its status before. -/
  source : Status
  /-- Its status after. -/
  target : Status
  /-- Detail, when it failed or crashed. -/
  failure : Option Failure
deriving DecidableEq

/-- Something that happened. -/
structure Event where
  /-- What it tells. -/
  kind : EventKind
  /-- The resource or subscriber it is about. -/
  resource : Option String := none
  /-- The change of status. -/
  move : Option Move := none
  /-- The new readiness. -/
  ready : Option Bool := none
  /-- The count of restarts. -/
  attempt : Option Nat := none
  /-- The delay of a restart in milliseconds. -/
  delayMs : Option Nat := none
  /-- The reason, for people. -/
  reason : Option String := none
deriving DecidableEq

namespace Event

/-- An event with nothing but its kind. -/
def new (kind : EventKind) : Event where
  kind := kind

/-- The change of status of a resource. -/
def transition (m : Move) : Event where
  kind := .transition
  resource := some m.resource
  move := some m
  reason := m.failure.map (·.message)

/-- A resource became ready, or stopped being so. -/
def readiness (resource : String) (ready : Bool) (reason : Option String) : Event where
  kind := .readinessChanged
  resource := some resource
  ready := some ready
  reason := reason

/-- A restart of `resource` begins after `delay`. -/
def scheduled (resource : String) (attempt : Nat) (delay : Span) (reason : String) : Event where
  kind := .restartScheduled
  resource := some resource
  attempt := some attempt
  delayMs := some delay.millisWord
  reason := some reason

/-- `resource` has no restarts left. -/
def exhausted (resource : String) (attempt : Nat) (reason : String) : Event where
  kind := .restartExhausted
  resource := some resource
  attempt := some attempt
  reason := some reason

/-- `resource` recovered after `attempt` restarts. -/
def recovered (resource : String) (attempt : Nat) : Event where
  kind := .restartRecovered
  resource := some resource
  attempt := some attempt

/-- The shutdown began, for a reason. -/
def shutdownRequested (reason : String) : Event where
  kind := .shutdownRequested
  reason := some reason

/-- Everything stopped in time. -/
def allStopped : Event := new .allStoppedWithin

/-- These resources did not stop in time. -/
def graceExceeded (stuck : List String) : Event where
  kind := .graceExceeded
  reason := some (", ".intercalate stuck)

/-- A subscriber had no room for an event: its queue was full, or closed. -/
def overflow (subscriber reason : String) : Event where
  kind := .subscriberOverflow
  resource := some subscriber
  reason := some ("subscriber=" ++ subscriber ++ " reason=" ++ reason)

/-- A subscriber panicked over an event. -/
def panicked (subscriber info : String) : Event where
  kind := .subscriberPanicked
  resource := some subscriber
  reason := some info

/-- The status a resource moved to. -/
def target? (e : Event) : Option Status := e.move.map (·.target)

/-! ### Numbers

Every event gets the next number when it is made. Whoever gets events can tell by the numbers that
none of them is out of order; answers about events say so. -/

/-- The events with the numbers they get when `next` is the first free one. -/
def numbered (next : Nat) (es : List Event) : List (Nat × Event) :=
  es.zipIdx next |>.map fun (e, n) ↦ (n, e)

/-- The events carry rising numbers. -/
def numbersGrow : List (Nat × Event) → Bool
  | (m, _) :: (n, e) :: rest => decide (m < n) && numbersGrow ((n, e) :: rest)
  | _ => true

end Event

end Supervision
