import Supervision.Supervisor.State

/-!
# Feeding subscribers and keeping records

The relay takes events off the bus and offers them to the subscribers' queues; once it was told to
stop and nothing is left on the bus, it closes the queues and waits for the workers to end. What the
workers report goes back on the bus. One of the subscribers may be the tracker, which notes crashes
with the session of the record store.
-/

namespace Supervision

namespace State

/-- The relay has something to do. -/
def relayIsEnabled (s : State) : Bool :=
  match s.relay with
  | none => false
  | some r =>
    match r.stage with
    | .listening => r.stop || s.ensemble.bus.receive r.next ≠ .nothing
    | .joining => s.fanout.isOver
    | .finished => false

/-- One step of the relay. -/
def stepRelay (S : Setup) (s : State) : State :=
  match s.relay with
  | none => s
  | some r =>
    match r.stage with
    | .listening =>
      match s.ensemble.bus.receive r.next with
      | .event e next =>
        let (fanout, reports) := s.fanout.emit S.subscribers e
        ({ s with relay := some { r with next := next }, fanout := fanout }.enter
          (.relayed r.next)).publishAll reports
      | .missed count next =>
        { s with relay := some { r with next := next } }.enter (.missed r.next count)
      | .nothing =>
        if r.stop then
          { s with relay := some { r with stage := .joining }, fanout := s.fanout.close }
        else s
    | .joining =>
      if s.fanout.isOver then
        { s with relay := some { r with stage := .finished } }.enter (.ended .relay)
      else s
    | .finished => s

/-- The events that subscriber `i` has handled to the end. -/
def handledBy (s : State) (i : Nat) : Array Event :=
  ((s.fanout.workers[i]?).map (·.handled)).getD #[]

/-- One step of worker `i`. An event that the tracker has handled is passed on to the record
store. -/
def stepWorker (S : Setup) (i : Nat) (s : State) : State :=
  let before := (s.handledBy i).size
  let (fanout, reports) := s.fanout.step S.subscribers s.now i
  let s := { s with fanout := fanout }.publishAll reports
  if S.tracker = some i then
    match (s.handledBy i)[before]? with
    | some e => { s with recorder := s.recorder.map (·.track e) }
    | none => s
  else s

/-- The writer has something to do. -/
def writerIsEnabled (s : State) : Bool := s.recorder.any (·.writer.isEnabled)

/-- One step of the writer, on a store that does not fail. -/
def stepWriter (s : State) : State :=
  { s with recorder := s.recorder.map fun r ↦ { r with writer := r.writer.step {} } }

/-- The moment at which the record store is looked after next. -/
def keeperTimer? (s : State) : Option Nat :=
  s.recorder.bind fun r ↦
    if r.finished then none else some (min r.sweeps.dueMillis r.beats.dueMillis)

/-- The record store is to be looked after. -/
def keeperIsEnabled (s : State) : Bool := s.keeperTimer?.any (· ≤ s.now)

/-- Looks after the record store once. -/
def stepKeeper (S : Setup) (s : State) : State :=
  { s with
    recorder := s.recorder.map fun r ↦
      if r.finished then r else r.runDue (S.calendar s.now) s.now 1 }

end State

end Supervision
