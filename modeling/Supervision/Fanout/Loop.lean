import Supervision.Fanout.Circuit

/-!
# Runs of the circuit

In a run of the circuit the relay, the workers, the clock and somebody outside have turns in any
order, without an end. `IsFair` is what can be expected of the order: as long as something is on its
way, sooner or later somebody has a turn who finds something to do. So a worker that is over an
event comes to the end of it, and time passes until then.

An echo is a panic over a report of the circuit itself.
-/

namespace Supervision

/-- The event was published by the circuit: it tells of a subscriber. -/
def Event.isReport (e : Event) : Bool :=
  e.kind = .subscriberPanicked || e.kind = .subscriberOverflow

/-- The subscriber panics over the event, now or later. -/
def Reaction.isPanic : Reaction → Bool
  | panics _ _ => true
  | returns _ | refuses => false

/-- Something that happens in a circuit. -/
inductive CircuitMove where
  /-- Somebody outside publishes an event. -/
  | publish (e : Event)
  /-- The relay has a turn. -/
  | relay
  /-- Worker `i` has a turn. -/
  | work (i : Nat)
  /-- Milliseconds pass. -/
  | pass (ms : Nat)
deriving DecidableEq

namespace Circuit

variable (subs : Array Subscriber)

/-- One move. -/
def move (m : CircuitMove) (c : Circuit) : Circuit :=
  match m with
  | .publish e => c.publish [e]
  | .relay => c.relay subs
  | .work i => c.work subs i
  | .pass ms => { c with now := c.now + ms }

/-- An idle circuit; its bus holds so many events. -/
def start (room : Nat) : Circuit := ofSubscribers { room := room } subs

/-- The circuit after the first `k` moves of a run. -/
def after (room : Nat) (run : Nat → CircuitMove) : Nat → Circuit
  | 0 => start subs room
  | k + 1 => (after room run k).move subs (run k)

/-- Nothing is on its way: the relay has taken everything off the bus, every queue is empty, and
nobody is over an event. -/
structure IsQuiet (c : Circuit) : Prop where
  bus : c.bus.receive c.next = .nothing
  workers : ∀ w ∈ c.fanout.workers, w.queue = [] ∧ w.timer? = none

/-- The worker takes an event that tells of a subscriber, and its own subscriber panics over it. -/
def isEchoAt (c : Circuit) (i : Nat) : Bool :=
  match subs[i]?, c.fanout.workers[i]? with
  | some s, some w =>
    match w.stage, w.queue with
    | .receiving, e :: _ => e.isReport && (s.react w.taken.size e).isPanic
    | _, _ => false
  | _, _ => false

end Circuit

namespace CircuitMove

/-- It comes from outside. -/
def isPublish : CircuitMove → Bool
  | publish _ => true
  | relay | work _ | pass _ => false

/-- Whoever has the turn finds something to do. -/
def isOfUse (c : Circuit) : CircuitMove → Bool
  | relay => c.bus.receive c.next ≠ .nothing
  | work i => c.fanout.isEnabled c.now i
  | publish _ | pass _ => false

/-- Somebody panics over a report. -/
def isEcho (subs : Array Subscriber) (c : Circuit) : CircuitMove → Bool
  | work i => c.isEchoAt subs i
  | publish _ | relay | pass _ => false

end CircuitMove

namespace Circuit

variable (subs : Array Subscriber) (room : Nat) (run : Nat → CircuitMove)

/-- As long as something is on its way, a turn of use follows. -/
def IsFair : Prop :=
  ∀ k, ¬ (after subs room run k).IsQuiet →
    ∃ j ≥ k, (run j).isOfUse (after subs room run j) = true

/-- How many of the first `k` moves are of some kind, in the state in which they are made. -/
def tally (p : Circuit → CircuitMove → Bool) (k : Nat) : Nat :=
  (List.range k).countP fun j ↦ p (after subs room run j) (run j)

theorem tally_succ (p : Circuit → CircuitMove → Bool) (k : Nat) :
    tally subs room run p (k + 1) =
      tally subs room run p k + (p (after subs room run k) (run k)).toNat := by
  rw [tally, tally, List.range_succ, List.countP_append, List.countP_singleton]
  cases p (after subs room run k) (run k) <;> rfl

/-- How many events came from outside. -/
def published (k : Nat) : Nat := tally subs room run (fun _ m ↦ m.isPublish) k

/-- How many panics were over reports. -/
def echoes (k : Nat) : Nat := tally subs room run (fun c m ↦ m.isEcho subs c) k

/-- How many turns were of use. -/
def turnsOfUse (k : Nat) : Nat := tally subs room run (fun c m ↦ m.isOfUse c) k

end Circuit

end Supervision
