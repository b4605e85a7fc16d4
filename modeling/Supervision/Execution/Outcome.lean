import Supervision.Failure
import Supervision.Time.Span
import Supervision.Time.Stamp

/-!
# Outcomes of work and their records

A unit of work is run for a registered listener or job (`Target`). It succeeds, fails or is
cancelled (`Outcome`); what is kept of it is one `Record`.
-/

namespace Supervision

/-- The two kinds of registrations. -/
inductive Family where
  /-- Listens to events. -/
  | listener
  /-- Runs on a schedule. -/
  | job
deriving DecidableEq, Inhabited

/-- The name of a kind of registration. -/
def Family.name : Family → String
  | .listener => "listener"
  | .job => "job"

/-- A registration by the number the store gave it. -/
structure Target where
  /-- Listener or job. -/
  family : Family
  /-- Its number. -/
  id : Int
deriving DecidableEq, Inhabited

/-- Text of a target. -/
def Target.text (t : Target) : String := t.family.name ++ "#" ++ toString t.id

/-- How a unit of work is recorded. -/
inductive RecordStatus where
  | success
  | error
  | cancelled
deriving DecidableEq, Inhabited

namespace RecordStatus

/-- The name of a status, as it is stored. -/
def name : RecordStatus → String
  | success => "success"
  | error => "error"
  | cancelled => "cancelled"

/-- Every status. -/
def all : List RecordStatus := [success, error, cancelled]

/-- The status of a stored name. -/
def ofName? (s : String) : Option RecordStatus := all.find? (·.name == s)

end RecordStatus

/-- How grave an error of a unit of work is. -/
inductive ErrorClass where
  /-- Recognised; one line in the log. -/
  | framework
  /-- Unexpected, a panic among them; logged with its trace. -/
  | unclassified
deriving DecidableEq

/-- What came of a unit of work. -/
inductive Outcome where
  | success
  | error (grade : ErrorClass) (detail : Failure)
  | cancelled
deriving DecidableEq

namespace Outcome

/-- The status an outcome is recorded with. -/
def status : Outcome → RecordStatus
  | success => .success
  | error _ _ => .error
  | cancelled => .cancelled

/-- The detail of an error. -/
def detail? : Outcome → Option Failure
  | error _ detail => some detail
  | _ => none

end Outcome

/-- What is kept of one unit of work. -/
structure Record where
  /-- The registration it ran for. -/
  target : Target
  /-- The session it belongs to. -/
  session : Int
  /-- When it began. -/
  startedAt : Stamp
  /-- How long it took. -/
  duration : Span
  /-- How it ended. -/
  status : RecordStatus
  /-- Kind of its error. -/
  errorType : Option String
  /-- Message of its error. -/
  errorMessage : Option String
  /-- Trace of its error. -/
  errorTrace : Option String
deriving DecidableEq, Inhabited

/-- The record of an outcome. -/
def Record.ofOutcome (target : Target) (session : Int) (startedAt : Stamp) (duration : Span)
    (outcome : Outcome) : Record where
  target := target
  session := session
  startedAt := startedAt
  duration := duration
  status := outcome.status
  errorType := outcome.detail?.map (·.kind)
  errorMessage := outcome.detail?.map (·.message)
  errorTrace := outcome.detail?.bind (·.trace)

end Supervision
