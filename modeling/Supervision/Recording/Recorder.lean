import Supervision.Event
import Supervision.Recording.Writer
import Supervision.Settings.Recording
import Supervision.Store.Sweep
import Supervision.Store.Upsert

/-!
# Recording one life of a process

A `Recorder` keeps the session of one life of a process. It begins by closing what earlier lives
left open, and then looks after the store: a writer empties the queue, signs of life are given and
old records are swept at intervals. `finish` stops all of that, lets the writer empty its queue, and
closes the session; it does so once.

Time comes in two kinds. Intervals run in milliseconds since the recorder began; what is stored is
stamped by the calendar, which every operation is given.
-/

namespace Supervision

/-- How one life of a process ended. -/
inductive SessionEnd where
  | success
  | error (detail : Failure)
deriving DecidableEq

namespace SessionEnd

/-- The status a session is closed with. -/
def status : SessionEnd → SessionStatus
  | success => .success
  | error _ => .error

/-- The failure a session is closed with. -/
def failure? : SessionEnd → Option Failure
  | success => none
  | error detail => some detail

end SessionEnd

/-- What runs at equal intervals; moments are in nanoseconds. -/
structure Interval where
  /-- Time from one run to the next. -/
  period : Nat
  /-- The moment of the next run. -/
  due : Nat
deriving DecidableEq

namespace Interval

/-- The shortest period. -/
def shortest : Span := .ofMillis 10

/-- An interval whose first run has just been. -/
def start (every : Span) : Interval :=
  let period := (max every shortest).nanos
  ⟨period, period⟩

/-- The moment of the next run in whole milliseconds. -/
def dueMillis (i : Interval) : Nat := Span.millisUp ⟨i.due⟩

/-- The interval after its next run. -/
def next (i : Interval) : Interval := { i with due := i.due + i.period }

end Interval

/-- The session of one life of a process, with everything that looks after it. -/
structure Recorder where
  /-- How records are kept. -/
  settings : RecordSettings
  /-- The number of the session. -/
  session : Int
  /-- The writer with queue and store. -/
  writer : Writer
  /-- Milliseconds since the recorder began. -/
  now : Nat := 0
  /-- Signs of life. -/
  beats : Interval
  /-- Sweeps. -/
  sweeps : Interval
  /-- The session was closed, or that was tried. -/
  finished : Bool := false

namespace Recorder

/-- The store. -/
def store (r : Recorder) : Store := r.writer.store

/-- The recorder with another store. -/
def setStore (s : Store) (r : Recorder) : Recorder :=
  { r with writer := { r.writer with store := s } }

/-- How many writes were lost. -/
def dropped (r : Recorder) : Nat := r.writer.sink.dropped

/-- Removes what is too old or too much. -/
def sweep (clock : Stamp) (r : Recorder) : Recorder :=
  r.setStore
    (r.store.sweep Store.footprint clock r.settings.retention r.settings.maxBytes).2

/-- Gives a sign of life. -/
def beat (clock : Stamp) (r : Recorder) : Recorder :=
  r.setStore (r.store.heartbeat r.session clock).2

/-- Begins a session on a store: earlier ones are closed, the new one is opened, and the store is
swept. -/
def start (settings : RecordSettings) (clock : Stamp) (s : Store) : Except StoreError Recorder :=
  match s.finalizeOrphans with
  | (.error e, _) => .error e
  | (.ok _, s) =>
    match s.beginSession clock with
    | (.error e, _) => .error e
    | (.ok id, s) =>
      let writer : Writer :=
        { sink := .ofCapacity settings.queueCapacity, store := s, batchSize := settings.batchSize }
      let r : Recorder :=
        { settings := settings, session := id, writer := writer
          beats := .start settings.heartbeatInterval, sweeps := .start settings.sweepInterval }
      .ok (r.sweep clock)

/-! ### Writes -/

/-- Lets the writer go on until it has to wait. -/
def settle (r : Recorder) : Recorder := { r with writer := r.writer.settle }

/-- Offers a write: whether it was taken, what is logged, and the recorder after it. -/
def offer (w : Write) (r : Recorder) : Bool × List LogLine × Recorder :=
  let (taken, lines, writer) := r.writer.offer w
  (taken, lines, { r with writer := writer })

/-- The failure that the session keeps of an event: that of a crash, and nothing else. -/
def crash? (e : Event) : Option Failure :=
  if e.kind = .transition then
    e.move.bind fun m ↦
      if m.target = .crashed then
        some (m.failure.getD (.plain "crashed" (m.resource ++ " crashed")))
      else none
  else none

/-- The name of the tracker among the subscribers. -/
def trackerName : String := "session-tracker"

/-- Takes note of an event. -/
def track (e : Event) (r : Recorder) : Recorder :=
  match crash? e with
  | some f => (r.offer (.sessionError r.session f)).2.2
  | none => r

/-- Waits until everything queued so far is through; whether a sign of that came back. -/
def flush (r : Recorder) : Bool × Recorder :=
  let r := r.settle
  if r.writer.sink.takesSign then
    let ticket := r.writer.given.length
    let r := settle { r with writer := { r.writer with sink := r.writer.sink.putSign ticket } }
    (r.writer.given.contains ticket, r)
  else (false, r)

/-! ### Time -/

/-- Does what is due next if that is at `limit` or before, in at most `fuel` runs. -/
def runDue (clock : Stamp) (limit : Nat) : Nat → Recorder → Recorder
  | 0, r => r
  | fuel + 1, r =>
    if r.sweeps.dueMillis ≤ r.beats.dueMillis ∧ r.sweeps.dueMillis ≤ limit then
      runDue clock limit fuel (sweep clock { r with sweeps := r.sweeps.next })
    else if r.beats.dueMillis ≤ limit then
      runDue clock limit fuel (beat clock { r with beats := r.beats.next })
    else r

/-- Lets so many milliseconds pass, while everything in the background is done. -/
def advance (clock : Stamp) (ms : Nat) (r : Recorder) : Recorder :=
  let r := r.settle
  let limit := r.now + ms
  let r := if r.finished then r else runDue clock limit (ms / 5 + 2) r
  { r with now := limit }

/-! ### The end -/

/-- Begins to close the session: what runs at intervals stops, and the writer is told to stop once
its queue is empty. -/
def beginFinish (r : Recorder) : Recorder :=
  { r with finished := true, writer := { r.writer with stop := true } }

/-- Closes the session. -/
def closeSession (ending : SessionEnd) (clock : Stamp) (r : Recorder) :
    Except StoreError Unit × Recorder :=
  let (result, s) := r.store.finishSession r.session ending.status ending.failure? clock
  (result.map fun _ ↦ (), r.setStore s)

/-- Stops everything and closes the session. Doing so again changes nothing. -/
def finish (ending : SessionEnd) (clock : Stamp) (r : Recorder) :
    Except StoreError Unit × Recorder :=
  if r.finished then (.ok (), r) else r.beginFinish.settle.closeSession ending clock

end Recorder

end Supervision
