import Supervision.Fanout

/-!
# The circuit of bus, relay and workers

What the workers report is published on the same bus from which the relay feeds their queues. A
`Circuit` is that closed circle: events come in from outside by `emit` or `publish`, the relay takes
them off the bus, and each worker goes at its own pace.

Time stands still while something can be done; `advance` and `drain` let it pass.
-/

namespace Supervision

/-- A bus, a relay on it, and the workers it feeds. -/
structure Circuit where
  /-- The moment, in milliseconds. -/
  now : Nat := 0
  /-- The bus. -/
  bus : Bus
  /-- The event on the bus that the relay takes next. -/
  next : Nat := 0
  /-- The workers. -/
  fanout : Fanout

namespace Circuit

/-- An idle circuit for some subscribers. -/
def ofSubscribers (bus : Bus) (subs : Array Subscriber) : Circuit where
  bus := bus
  fanout := .ofCount subs.size

/-- Publishes events in order. -/
def publish (events : List Event) (c : Circuit) : Circuit :=
  { c with bus := events.foldl (fun b e ↦ b.publish e) c.bus }

/-- Offers an event to every queue and publishes what that reports. -/
def emit (subs : Array Subscriber) (e : Event) (c : Circuit) : Circuit :=
  let (fanout, reports) := c.fanout.emit subs e
  publish reports { c with fanout := fanout }

/-- One receipt of the relay. -/
def relay (subs : Array Subscriber) (c : Circuit) : Circuit :=
  match c.bus.receive c.next with
  | .nothing => c
  | .missed _ next => { c with next := next }
  | .event e next => emit subs e { c with next := next }

/-- The relay takes everything off the bus, in at most `fuel` receipts. -/
def relayAll (subs : Array Subscriber) : Nat → Circuit → Circuit
  | 0, c => c
  | fuel + 1, c =>
    if c.bus.receive c.next = .nothing then c else relayAll subs fuel (c.relay subs)

/-- The relay feeds the workers with everything on the bus. Each event on the bus brings at most
one report for each worker, and the reports bring none. -/
def feed (subs : Array Subscriber) (c : Circuit) : Circuit :=
  relayAll subs ((c.bus.size - c.next + 1) * (subs.size + 2)) c

/-- One step of worker `i`. -/
def work (subs : Array Subscriber) (i : Nat) (c : Circuit) : Circuit :=
  let (fanout, reports) := c.fanout.step subs c.now i
  publish reports { c with fanout := fanout }

/-- Worker `i` goes on until it has to wait, in at most `fuel` steps. -/
def workOn (subs : Array Subscriber) (i : Nat) : Nat → Circuit → Circuit
  | 0, c => c
  | fuel + 1, c =>
    if c.fanout.isEnabled c.now i then workOn subs i fuel (c.work subs i) else c

/-- Events in the queue of worker `i`. -/
def waiting (c : Circuit) (i : Nat) : Nat := (c.fanout.workers[i]?.map (·.queue.length)).getD 0

/-- Events in all queues. -/
def backlog (c : Circuit) : Nat :=
  (List.range c.fanout.workers.size).foldl (fun n i ↦ n + c.waiting i) 0

/-- Every worker in turn goes on until it has to wait. -/
def settle (subs : Array Subscriber) (c : Circuit) : Circuit :=
  (List.range c.fanout.workers.size).foldl
    (fun c i ↦ workOn subs i (2 * c.waiting i + 3) c) c

/-- Lets time pass from one timer to the next while the timers come before `limit`. -/
def runBefore (subs : Array Subscriber) (limit : Option Nat) : Nat → Circuit → Circuit
  | 0, c => c
  | fuel + 1, c =>
    let c := c.settle subs
    match c.fanout.timer? with
    | none => c
    | some t =>
      if limit.all (t < ·) then runBefore subs limit fuel { c with now := max t c.now } else c

/-- Lets so many milliseconds pass; if there are none, nobody has a turn. What is due at their end
is left for later. -/
def advance (subs : Array Subscriber) (ms : Nat) (c : Circuit) : Circuit :=
  if ms = 0 then c
  else
    let limit := c.now + ms
    let c := runBefore subs (some limit) (c.backlog + c.fanout.workers.size + 1) c
    { c with now := limit }

/-- Closes the queues and waits until every worker has ended. -/
def drain (subs : Array Subscriber) (c : Circuit) : Circuit :=
  let c := { c with fanout := c.fanout.close }
  runBefore subs none (c.backlog + c.fanout.workers.size + 1) c

end Circuit

end Supervision
