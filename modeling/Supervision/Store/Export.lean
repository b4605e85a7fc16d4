import Supervision.Document.Value
import Supervision.Store.Session
import Supervision.Store.Sweep

/-!
# Exported forms

Records, registrations, sessions and sweep reports as values to be written. Moments are written as
date and time of day, lengths of time as seconds and nanoseconds.
-/

namespace Supervision

open Document

/-- A length of time as seconds and nanoseconds. -/
def Span.value (d : Span) : Value :=
  .object [("secs", .int d.seconds), ("nanos", .int d.subsec)]

/-- A length of time that may be missing. -/
def Span.value? : Option Span → Value
  | some d => d.value
  | none => .null

/-- A moment as date and time of day. -/
def Stamp.value (t : Stamp) : Value := .text t.text

/-- A target as its family and number. -/
def Target.value (t : Target) : Value :=
  .object [("kind", .text t.family.name), ("id", .int t.id)]

/-- A record, field by field. -/
def Record.value (r : Record) : Value :=
  .object
    [("target", r.target.value), ("session_id", .int r.session),
      ("started_at", r.startedAt.value), ("duration", r.duration.value),
      ("status", .text r.status.name), ("error_type", .text? r.errorType),
      ("error_message", .text? r.errorMessage), ("error_trace", .text? r.errorTrace)]

/-- A key, field by field. -/
def RegistrationKey.value (k : RegistrationKey) : Value :=
  .object
    [("app_key", .text k.app), ("instance_index", .int k.instanceIndex), ("name", .text k.name),
      ("topic", .text k.topic)]

/-- A listener, field by field. -/
def Registration.listenerValue (l : Registration ListenerInfo) : Value :=
  .object
    [("key", l.key.value), ("debounce", Span.value? l.info.debounce),
      ("throttle", Span.value? l.info.throttle), ("once", .bool l.info.once),
      ("priority", .int l.info.priority), ("predicate", .text? l.info.predicate),
      ("source_location", .text? l.info.source)]

/-- A job, field by field. -/
def Registration.jobValue (j : Registration JobInfo) : Value :=
  .object
    [("key", j.key.value), ("handler_name", .text j.info.handler),
      ("trigger_type", .text j.info.trigger), ("trigger_description", .text? j.info.description),
      ("repeat", .bool j.info.repeats), ("source_location", .text? j.info.source)]

/-- A session, field by field. -/
def Session.value (s : Session) : Value :=
  .object
    [("id", .int s.id), ("started_at", s.startedAt.value),
      ("stopped_at", (s.stoppedAt.map (·.value)).getD .null),
      ("last_heartbeat_at", s.lastHeartbeatAt.value), ("status", .text s.status.name),
      ("error_type", .text? s.errorType), ("error_message", .text? s.errorMessage),
      ("error_trace", .text? s.errorTrace)]

/-- A sweep report, field by field. -/
def Store.SweepReport.value (r : SweepReport) : Value :=
  .object
    [("expired", .int r.expired), ("evicted", .int r.evicted),
      ("registrations", .int r.registrations)]

end Supervision
