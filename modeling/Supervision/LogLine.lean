import Supervision.Event

/-!
# Log lines

A log line has a level, a text and named fields. `LogLine.ofEvent?` is the line the log writer puts
out for an event; a change of status without payload puts out none.
-/

namespace Supervision

/-- How grave a log line is. -/
inductive Level where
  | debug
  | info
  | warn
  | error
deriving DecidableEq

/-- The name of a level. -/
def Level.name : Level → String
  | .debug => "DEBUG"
  | .info => "INFO"
  | .warn => "WARN"
  | .error => "ERROR"

/-- One line of the log. -/
structure LogLine where
  /-- How grave it is. -/
  level : Level
  /-- Its text. -/
  message : String
  /-- Its named fields, in order. -/
  fields : List (String × String)
deriving DecidableEq

namespace LogLine

/-- An optional value as it stands in a field. -/
def optional : Option String → String
  | some s => "Some(" ++ s ++ ")"
  | none => "None"

/-- The line of a change of status: failures warn, crashes are errors, all else is information. -/
def ofMove (m : Move) (resource reason : String) : LogLine :=
  let places := [("resource", resource), ("from", m.source.name), ("to", m.target.name)]
  match m.target with
  | .failed => ⟨.warn, "transition", places ++ [("reason", reason)]⟩
  | .crashed => ⟨.error, "transition", places ++ [("reason", reason)]⟩
  | _ => ⟨.info, "transition", places⟩

/-- The line of an event, if it puts one out. -/
def ofEvent? (e : Event) : Option LogLine :=
  let resource := e.resource.getD ""
  let reason := e.reason.getD ""
  match e.kind with
  | .transition => e.move.map (ofMove · resource reason)
  | .readinessChanged =>
    some ⟨.debug, "readiness changed",
      [("resource", resource),
        ("ready", optional (e.ready.map fun b ↦ if b then "true" else "false")),
        ("reason", reason)]⟩
  | .restartScheduled =>
    some ⟨.info, "restart scheduled",
      [("resource", resource), ("attempt", optional (e.attempt.map toString)),
        ("delay_ms", optional (e.delayMs.map toString)), ("reason", reason)]⟩
  | .restartRecovered => some ⟨.info, "restart counter reset", [("resource", resource)]⟩
  | .restartExhausted =>
    some ⟨.error, "restarts exhausted",
      [("resource", resource), ("attempt", optional (e.attempt.map toString)),
        ("reason", reason)]⟩
  | .shutdownRequested => some ⟨.info, "shutdown requested", [("reason", reason)]⟩
  | .allStoppedWithin => some ⟨.info, "all resources stopped within grace", []⟩
  | .graceExceeded => some ⟨.warn, "grace exceeded", [("stuck", reason)]⟩
  | .subscriberPanicked =>
    some ⟨.warn, "subscriber problem",
      [("subscriber", resource), ("reason", reason), ("kind", "SubscriberPanicked")]⟩
  | .subscriberOverflow =>
    some ⟨.warn, "subscriber problem",
      [("subscriber", resource), ("reason", reason), ("kind", "SubscriberOverflow")]⟩

end LogLine

/-- The log writer as a subscriber: its name, and the room its queue has. -/
structure LogWriter where
  /-- Name in reports. -/
  name : String := "log-writer"
  /-- Events its queue holds. -/
  capacity : Nat := 1024

end Supervision
