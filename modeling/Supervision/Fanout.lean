import Supervision.Bus
import Supervision.Failure

/-!
# Fan-out to subscribers

Each subscriber has a bounded queue and a worker of its own, so that a slow or panicking subscriber
troubles nobody else. `emit` offers an event to every queue and never waits: where there is no room
the event is lost for that subscriber, and an overflow event says so. Overflow events that find no
room are lost in silence, which is why overflow cannot feed itself.

A worker takes one event after the other. A panic over an event is reported and the worker goes on;
a subscriber that panics before it even begins to handle an event takes its worker down, and from
then on its queue refuses everything.

* `queue_offer` — an offer changes a queue at its end only.
* `emit_reports` — every report of an emission is an overflow.
-/

namespace Supervision

/-- What a subscriber does with an event. -/
inductive Reaction where
  /-- Handles it within so many milliseconds. -/
  | returns (delay : Nat)
  /-- Panics over it after so many milliseconds. -/
  | panics (delay : Nat) (payload : Payload)
  /-- Panics before it begins to handle it. -/
  | refuses
deriving DecidableEq

namespace Reaction

/-- How long the handling lasts. -/
def delay : Reaction → Nat
  | returns d | panics d _ => d
  | refuses => 0

end Reaction

/-- A subscriber: its name, the room of its queue, and what it does with each event it takes, by
the count of those it took before. -/
structure Subscriber where
  name : String
  room : Nat := 1024
  react : Nat → Event → Reaction := fun _ _ ↦ .returns 0

namespace Subscriber

/-- A queue holds one event at least. -/
def queueRoom (s : Subscriber) : Nat := max s.room 1

end Subscriber

/-- Where a worker stands. -/
inductive WorkerStage where
  /-- Ready for the next event. -/
  | receiving
  /-- Over an event until a moment, with how that will end. -/
  | handling (e : Event) (due : Nat) (ending : Option Payload)
  /-- Ended in good order. -/
  | ended
  /-- Taken down by its subscriber. -/
  | dead
deriving DecidableEq

/-- Why an event is not put into a queue. -/
inductive Refusal where
  | full
  | closed
deriving DecidableEq

/-- The word for a refusal. -/
def Refusal.word : Refusal → String
  | .full => "full"
  | .closed => "closed"

/-- An event offered to a queue, and why it was refused, if it was. -/
structure Offer where
  event : Event
  refusal : Option Refusal
deriving DecidableEq

/-- A subscriber's worker with its queue. -/
structure Worker where
  /-- Events offered to the queue, oldest first. -/
  offers : Array Offer := #[]
  /-- Events not taken yet, oldest first. -/
  queue : List Event := []
  /-- Events passed to the subscriber, oldest first. -/
  taken : Array Event := #[]
  /-- Events that the subscriber handled to the end, oldest first. -/
  handled : Array Event := #[]
  /-- Where it stands. -/
  stage : WorkerStage := .receiving
deriving DecidableEq, Inhabited

namespace Worker

/-- Nothing more will happen. -/
def isOver (w : Worker) : Bool :=
  match w.stage with
  | .ended | .dead => true
  | _ => false

/-- Why the queue would refuse an event now, if it would. -/
def refusal? (room : Nat) (w : Worker) : Option Refusal :=
  if w.isOver then some .closed
  else if w.queue.length < room then none
  else some .full

/-- Puts an event at the end of the queue, unless that is refused. -/
def offer (room : Nat) (e : Event) (w : Worker) : Option Refusal × Worker :=
  let refusal := w.refusal? room
  (refusal,
    { w with
      offers := w.offers.push ⟨e, refusal⟩
      queue := if refusal.isNone then w.queue ++ [e] else w.queue })

/-- Ends the handling of an event: the worker after it, and what is reported. -/
def finish (name : String) (e : Event) (ending : Option Payload) (w : Worker) :
    Worker × List Event :=
  match ending with
  | none => ({ w with stage := .receiving, handled := w.handled.push e }, [])
  | some payload => ({ w with stage := .receiving }, [.panicked name payload.message])

/-- The worker has something to do: an event to take or to finish, or its end when the queue is
closed and empty. -/
def isEnabled (now : Nat) (closed : Bool) (w : Worker) : Bool :=
  match w.stage with
  | .receiving => !w.queue.isEmpty || closed
  | .handling _ due _ => due ≤ now
  | .ended | .dead => false

/-- One step of a worker: the worker after it, and what is reported. -/
def step (s : Subscriber) (now : Nat) (closed : Bool) (w : Worker) : Worker × List Event :=
  match w.stage with
  | .receiving =>
    match w.queue with
    | [] => (if closed then { w with stage := .ended } else w, [])
    | e :: rest =>
      let reaction := s.react w.taken.size e
      let w := { w with queue := rest, taken := w.taken.push e }
      let ending := match reaction with
        | .panics _ payload => some payload
        | _ => none
      if reaction = .refuses then ({ w with stage := .dead, queue := [] }, [])
      else if reaction.delay = 0 then w.finish s.name e ending
      else ({ w with stage := .handling e (now + reaction.delay) ending }, [])
  | .handling e due ending => if due ≤ now then w.finish s.name e ending else (w, [])
  | .ended | .dead => (w, [])

/-- The moment at which the worker goes on by itself. -/
def timer? (w : Worker) : Option Nat :=
  match w.stage with
  | .handling _ due _ => some due
  | _ => none

/-- The events that were offered and not refused, oldest first. -/
def accepted (w : Worker) : List Event :=
  (w.offers.toList.filter (·.refusal.isNone)).map (·.event)

/-- An accepted event stands at the end of the queue; a refusal leaves the queue as it was. -/
theorem queue_offer (room : Nat) (e : Event) (w : Worker) :
    (w.offer room e).2.queue = if (w.refusal? room).isNone then w.queue ++ [e] else w.queue := rfl

theorem accepted_offer (room : Nat) (e : Event) (w : Worker) :
    (w.offer room e).2.accepted
      = if (w.refusal? room).isNone then w.accepted ++ [e] else w.accepted := by
  unfold offer accepted
  cases h : w.refusal? room <;> simp

end Worker

/-- Workers of several subscribers. -/
structure Fanout where
  /-- The workers by the places of their subscribers. -/
  workers : Array Worker
  /-- Nothing more will be emitted. -/
  closed : Bool := false
deriving DecidableEq, Inhabited

namespace Fanout

/-- Workers for as many subscribers, all idle. -/
def ofCount (count : Nat) : Fanout where
  workers := Array.replicate count {}

/-- Offers an event to the queue of one subscriber: the workers after it, and what is reported. -/
def offer (subs : Array Subscriber) (e : Event) (f : Fanout) (i : Nat) : Fanout × List Event :=
  match subs[i]?, f.workers[i]? with
  | some s, some w =>
    let (refusal, w') := w.offer s.queueRoom e
    let reports := match refusal with
      | some r => if e.kind = .subscriberOverflow then [] else [Event.overflow s.name r.word]
      | none => []
    ({ f with workers := f.workers.setIfInBounds i w' }, reports)
  | _, _ => (f, [])

/-- Offers an event to every queue: the workers after it, and what is reported. -/
def emit (subs : Array Subscriber) (e : Event) (f : Fanout) : Fanout × List Event :=
  (List.range f.workers.size).foldl (fun (f, reports) i ↦
    let (f, more) := offer subs e f i
    (f, reports ++ more)) (f, [])

/-- Closes every queue. -/
def close (f : Fanout) : Fanout := { f with closed := true }

/-- Worker `i` has something to do. -/
def isEnabled (now : Nat) (f : Fanout) (i : Nat) : Bool :=
  f.workers[i]?.any (·.isEnabled now f.closed)

/-- One step of worker `i`: the workers after it, and what is reported. -/
def step (subs : Array Subscriber) (now : Nat) (f : Fanout) (i : Nat) : Fanout × List Event :=
  match subs[i]?, f.workers[i]? with
  | some s, some w =>
    let (w', reports) := w.step s now f.closed
    ({ f with workers := f.workers.setIfInBounds i w' }, reports)
  | _, _ => (f, [])

/-- Every worker is done. -/
def isOver (f : Fanout) : Bool := f.workers.all (·.isOver)

/-- The next moment at which a worker goes on by itself. -/
def timer? (f : Fanout) : Option Nat := (f.workers.toList.filterMap (·.timer?)).min?

theorem offer_reports {subs : Array Subscriber} {e : Event} {f : Fanout} {i : Nat} {r : Event}
    (h : r ∈ (f.offer subs e i).2) :
    r.kind = .subscriberOverflow ∧ e.kind ≠ .subscriberOverflow := by
  unfold offer at h
  split at h
  · dsimp only at h
    split at h
    · split at h
      · simp at h
      · rename_i he
        simp only [List.mem_singleton] at h
        exact ⟨by rw [h]; rfl, he⟩
    · simp at h
  · simp at h

/-- What an emission reports are overflows, and the overflow of an overflow is not reported. -/
theorem emit_reports {subs : Array Subscriber} {e : Event} {f : Fanout} {r : Event}
    (h : r ∈ (f.emit subs e).2) :
    r.kind = .subscriberOverflow ∧ e.kind ≠ .subscriberOverflow := by
  have key : ∀ (is : List Nat) (f : Fanout) (acc : List Event),
      r ∈ (is.foldl (fun (x : Fanout × List Event) i ↦
        ((offer subs e x.1 i).1, x.2 ++ (offer subs e x.1 i).2)) (f, acc)).2 →
      r ∈ acc ∨ (r.kind = .subscriberOverflow ∧ e.kind ≠ .subscriberOverflow) := by
    intro is
    induction is with
    | nil => exact fun _ _ h ↦ .inl h
    | cons i is ih =>
      intro f acc h
      rcases ih _ _ h with h | h
      · rcases List.mem_append.1 h with h | h
        · exact .inl h
        · exact .inr (offer_reports h)
      · exact .inr h
  rcases key _ f [] h with h | h
  · simp at h
  · exact h

end Fanout

end Supervision
