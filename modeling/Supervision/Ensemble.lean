import Supervision.Bus
import Supervision.Lifecycle
import Supervision.Readiness
import Supervision.Shutdown

/-!
# Resources that share a bus and a shutdown

An `Ensemble` holds the lifecycles of several resources, each known by its place, the state of the
shutdown, and the bus on which every change of either is published.

* `mark_publishes` — a mark publishes what the lifecycle says, in order.
* `awaitTurns` — a wait for readiness while others take turns; `await`, when they make all changes
  of one moment in one turn.
-/

namespace Supervision

/-- Resources, a shutdown and a bus. -/
structure Ensemble where
  /-- The resources by their places. -/
  members : Array Lifecycle
  /-- The state of the shutdown. -/
  shutdown : Shutdown := {}
  /-- Where changes are published. -/
  bus : Bus
deriving Inhabited

namespace Ensemble

/-- Resources of the given names, none of them started. -/
def ofNames (bus : Bus) (names : List String) : Ensemble where
  members := (names.map Lifecycle.new).toArray
  bus := bus

/-- The resource in a place is there and ready. -/
def isReady (e : Ensemble) (place : Nat) : Bool := e.members[place]?.any (·.isReady)

/-- The status of the resource in a place. -/
def status? (e : Ensemble) (place : Nat) : Option Status := e.members[place]?.map (·.status)

/-- Publishes events in order. -/
def publish (events : List Event) (e : Ensemble) : Ensemble :=
  { e with bus := events.foldl (fun b ev ↦ b.publish ev) e.bus }

/-- Marks the resource in a place: what is published, and the ensemble after it. -/
def mark (place : Nat) (m : Mark) (e : Ensemble) : Except IllegalMove (List Event × Ensemble) :=
  match e.members[place]? with
  | none => .ok ([], e)
  | some c =>
    match c.mark m with
    | .error illegal => .error illegal
    | .ok (c', published) =>
      let events := published.map (·.event)
      .ok (events, publish events { e with members := e.members.setIfInBounds place c' })

/-- Asks for the shutdown: whether this began it, what is published, and the ensemble after it. -/
def request (c : Cause) (e : Ensemble) : Bool × List Event × Ensemble :=
  let (admitted, shutdown, events) := e.shutdown.request c
  (admitted, events, publish events { e with shutdown := shutdown })

theorem sent_publish (events : List Event) (e : Ensemble) :
    (e.publish events).bus.sent = e.bus.sent ++ events.toArray := by
  have key : ∀ (b : Bus), (events.foldl (fun b ev ↦ b.publish ev) b).sent
      = b.sent ++ events.toArray := by
    induction events with
    | nil => simp
    | cons ev rest ih =>
      intro b
      rw [List.foldl_cons, ih]
      simp only [Bus.publish, Array.push_eq_append, Array.append_assoc]
      simp
  exact key e.bus

/-- What a mark publishes stands at the end of the record, in order. -/
theorem mark_publishes {place : Nat} {m : Mark} {e e' : Ensemble} {events : List Event}
    (h : e.mark place m = .ok (events, e')) : e'.bus.sent = e.bus.sent ++ events.toArray := by
  unfold mark at h
  split at h
  · cases h; simp
  · split at h
    · cases h
    · cases h; exact sent_publish _ _

/-! ### Waiting while others act -/

/-- What others do to an ensemble. -/
inductive Change where
  | mark (place : Nat) (m : Mark)
  | request (c : Cause)
deriving DecidableEq

/-- Makes a change; an illegal mark changes nothing. -/
def change (c : Change) (e : Ensemble) : Ensemble :=
  match c with
  | .mark place m => match e.mark place m with
    | .ok (_, e') => e'
    | .error _ => e
  | .request c => (e.request c).2.2

/-- Makes changes one after the other. -/
def changeAll (cs : List Change) (e : Ensemble) : Ensemble := cs.foldl (fun e c ↦ e.change c) e

/-- What others do at a moment before a wait looks again. -/
structure Turn where
  /-- The moment, in milliseconds. -/
  moment : Nat
  /-- What they do, one after the other. -/
  changes : List Change
deriving DecidableEq

/-- One look of a wait at the ensemble. -/
def look (now : Nat) (e : Ensemble) (w : Wait) : Wait :=
  w.look now e.shutdown.isRequested e.isReady

/-- Goes on with a wait whose looks so far left it open. Turns come in rising order of their
moments; the wait looks after each of them and at its deadline, and what comes after its end is
never made. The answer is the result, the moment of the end, and the ensemble then. -/
def awaitOpen (w : Wait) : List Turn → Ensemble → WaitResult × Nat × Ensemble
  | [], e => (((look w.deadline e w).result?).getD .ready, w.deadline, e)
  | turn :: rest, e =>
    if w.deadline < turn.moment then
      (((look w.deadline e w).result?).getD .ready, w.deadline, e)
    else
      let e := e.changeAll turn.changes
      let w := look turn.moment e w
      match w.result? with
      | some result => (result, turn.moment, e)
      | none => awaitOpen w rest e

/-- Waits from `now` on while others take turns. -/
def awaitTurns (now : Nat) (w : Wait) (turns : List Turn) (e : Ensemble) :
    WaitResult × Nat × Ensemble :=
  let w := look now e w
  match w.result? with
  | some result => (result, now, e)
  | none => awaitOpen w turns e

/-- Changes with the moments at which they are made, in rising order; all changes of one moment are
one turn. -/
def turns : List (Nat × Change) → List Turn
  | [] => []
  | (t, c) :: rest =>
    match turns rest with
    | [] => [⟨t, [c]⟩]
    | turn :: later =>
      if turn.moment = t then ⟨t, c :: turn.changes⟩ :: later else ⟨t, [c]⟩ :: turn :: later

/-- Waits from `now` on while others make changes, all those of one moment before the wait looks
again. -/
def await (now : Nat) (w : Wait) (changes : List (Nat × Change)) (e : Ensemble) :
    WaitResult × Nat × Ensemble :=
  e.awaitTurns now w (turns changes)

/-- The resources in the given places with what they say about their readiness. -/
def pending (e : Ensemble) (places : List Nat) : List Pending :=
  places.filterMap fun p ↦ e.members[p]?.map fun c ↦ ⟨c.name, c.readiness.reason⟩

end Ensemble

end Supervision
