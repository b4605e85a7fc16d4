import Supervision.Execution.Call

/-!
# Calls poll by poll

The future of a call does nothing before it is polled. The first poll notes when the call begins
and sets up a `Guard`, which is armed. Each poll looks at the token, if the call was given one, and
only then polls the work. With an outcome the guard is disarmed and submits it. A guard that goes
while it is armed, because the future was dropped, submits that the call was cancelled.

A flight is a `Call` seen from nearer: `Flight.events` says what its touches are to the call.
-/

namespace Supervision

/-- A unit of work. -/
structure Work where
  /-- How many polls find it pending. -/
  pending : Nat
  /-- How the next poll ends it; none if it never ends. -/
  ending : Option WorkEnd
deriving DecidableEq

/-- One poll: how the work ended, if it did, and the work after it. -/
def Work.poll (w : Work) : Option WorkEnd × Work :=
  match w.pending with
  | 0 => (w.ending, w)
  | n + 1 => (none, { w with pending := n })

/-- What a call answers to its caller. Errors are swallowed; only cancellation is passed on. -/
def Outcome.answer : Outcome → CallResult
  | success => .ok
  | cancelled => .cancelled
  | error .framework _ => .ok
  | error .unclassified _ => .ok

/-- Stands for a call that has begun. -/
structure Guard where
  /-- The registration. -/
  target : Target
  /-- The session. -/
  session : Int
  /-- When the call began. -/
  startedAt : Stamp
  /-- Nothing was submitted yet. -/
  armed : Bool := true
deriving DecidableEq

namespace Guard

/-- The record of an outcome, so long after the begin. -/
def record (g : Guard) (elapsed : Span) (o : Outcome) : Record :=
  .ofOutcome g.target g.session g.startedAt elapsed o

/-- The guard goes: what it submits. -/
def release (g : Guard) (elapsed : Span) : List Record :=
  if g.armed then [g.record elapsed .cancelled] else []

/-- The guard is given the outcome, and goes: what it submits. -/
def settle (g : Guard) (elapsed : Span) (o : Outcome) : List Record :=
  let g := { g with armed := false }
  g.record elapsed o :: g.release elapsed

end Guard

/-- How far the future of a call has come. -/
inductive FlightStage where
  /-- Nobody has polled it. -/
  | parked
  /-- It waits for its work. -/
  | aloft (guard : Guard)
  /-- It has answered. -/
  | landed (answer : CallResult)
  /-- It was dropped before it answered. -/
  | lost
deriving DecidableEq

/-- The future of a call. -/
structure Flight where
  /-- The registration. -/
  target : Target
  /-- The session. -/
  session : Int
  /-- The call was given a token. -/
  hasToken : Bool
  /-- Its work. -/
  work : Work
  /-- How far it has come. -/
  stage : FlightStage := .parked
deriving DecidableEq

/-- What is done to the future of a call. -/
inductive Touch where
  /-- It is polled at some moment; the token, if there is one, may be cancelled by then. -/
  | poll (clock : Stamp) (cancelled : Bool)
  /-- It is dropped. -/
  | drop
deriving DecidableEq

namespace Flight

/-- A poll with the guard set up. -/
def advance (f : Flight) (g : Guard) (elapsed : Span) (cancelled : Bool) :
    Flight × List Record :=
  if f.hasToken && cancelled then
    ({ f with stage := .landed Outcome.cancelled.answer }, g.settle elapsed .cancelled)
  else
    let (ending, work) := f.work.poll
    match ending with
    | some e =>
      ({ f with work := work, stage := .landed e.outcome.answer }, g.settle elapsed e.outcome)
    | none => ({ f with work := work, stage := .aloft g }, [])

/-- The guard that the first poll sets up. -/
def guard (f : Flight) (clock : Stamp) : Guard :=
  { target := f.target, session := f.session, startedAt := clock }

/-- A touch, so long after the begin of the call: the future after it, and the records that are
submitted. -/
def step (f : Flight) (elapsed : Span) : Touch → Flight × List Record
  | .poll clock cancelled =>
    match f.stage with
    | .parked => f.advance (f.guard clock) elapsed cancelled
    | .aloft g => f.advance g elapsed cancelled
    | .landed _ | .lost => (f, [])
  | .drop =>
    match f.stage with
    | .parked => ({ f with stage := .lost }, [])
    | .aloft g => ({ f with stage := .lost }, g.release elapsed)
    | .landed _ | .lost => (f, [])

/-- Touches in order: the future after them, and the records that are submitted. -/
def run (f : Flight) : List (Span × Touch) → Flight × List Record
  | [] => (f, [])
  | (elapsed, t) :: rest =>
    let (f, rs) := f.step elapsed t
    let (f, more) := f.run rest
    (f, rs ++ more)

/-- What the caller was answered. -/
def answer? (f : Flight) : Option CallResult :=
  match f.stage with
  | .landed answer => some answer
  | _ => none

/-- The future has begun, and has neither answered nor been dropped. -/
def isAloft (f : Flight) : Bool :=
  match f.stage with
  | .aloft _ => true
  | _ => false

/-! ### The call of a flight -/

/-- What a touch is to the call. -/
def event (f : Flight) : Touch → CallEvent
  | .poll _ cancelled => .look (f.hasToken && cancelled) f.work.poll.1
  | .drop => .drop

/-- What touches are to the call. -/
def events (f : Flight) : List (Span × Touch) → List (Span × CallEvent)
  | [] => []
  | (elapsed, t) :: rest => (elapsed, f.event t) :: (f.step elapsed t).1.events rest

end Flight

end Supervision
