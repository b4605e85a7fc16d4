import Supervision.Ensemble
import Supervision.Fanout
import Supervision.Fault
import Supervision.Recording.Recorder
import Supervision.Restarts
import Supervision.Script
import Supervision.StartOrder

/-!
# The state of a supervisor

A `Setup` is what a supervisor is built from: settings, resources in their start order, subscribers.
A `State` is everything that changes while it runs. Several tasks share it, each known by its
`Task`: the host that carries out a run, the watchers that restart and escalate, the relay that
feeds subscribers, the workers behind it, the cycles of the resources, the restarts on the
calendar, the confirmations that resources have become ready, and the two that look after the
record store.

What happens is written into a chronicle, each entry with the moment it happened; entries are only
ever added (`Grows`).
-/

namespace Supervision

/-! ### What a supervisor is built from -/

/-- A resource in its place in the start order. -/
structure Post where
  /-- Its name. -/
  name : String
  /-- The places of what it depends on, in the order it names them. -/
  needs : List Nat
  /-- What each of its cycles does. -/
  behaviour : Nat → Behaviour

/-- What a supervisor is built from. -/
structure Setup where
  /-- Its settings. -/
  settings : Settings
  /-- The resources in their start order. -/
  posts : Array Post
  /-- The subscribers. -/
  subscribers : Array Subscriber := #[]
  /-- Which subscriber notes crashes in the record store. -/
  tracker : Option Nat := none
  /-- The dice that spread delays. -/
  dice : Nat → Nat := fun _ ↦ 0
  /-- The calendar date of every moment. -/
  calendar : Nat → Stamp := fun ms ↦ .ofMicros (ms * 1000)

namespace Setup

/-- The resources in their start order, or why there is none. -/
def posts? (rs : List Resource) : Except RunError (Array Post) := do
  let order ← startOrder (rs.map fun r ↦ ⟨r.name, r.dependsOn⟩)
  let ordered := order.filterMap (rs[·]?)
  let names := ordered.map (·.name)
  return (ordered.map fun r ↦
    { name := r.name, needs := r.dependsOn.filterMap (names.idxOf? ·), behaviour := r.behaviour
      : Post }).toArray

/-- A setup of resources and subscribers, or why there is none. With `tracking`, one more subscriber
notes crashes in the record store. -/
def build? (settings : Settings) (rs : List Resource) (subs : List Subscriber) (tracking : Bool) :
    Except RunError Setup := do
  let posts ← posts? rs
  if tracking then
    let tracker : Subscriber := { name := Recorder.trackerName }
    return { settings := settings, posts := posts, subscribers := (subs ++ [tracker]).toArray
             tracker := some subs.length }
  else return { settings := settings, posts := posts, subscribers := subs.toArray }

/-- The names of the resources in their start order. -/
def names (S : Setup) : List String := S.posts.toList.map (·.name)

/-- The place of a name. -/
def place? (S : Setup) (name : String) : Option Nat := S.names.idxOf? name

end Setup

/-! ### Tasks -/

/-- The tasks of a supervisor. -/
inductive Task where
  /-- Carries out a run. -/
  | host
  /-- Restarts failed resources and escalates crashes. -/
  | watcher (i : Nat)
  /-- Passes events from the bus to the subscribers. -/
  | relay
  /-- Handles events for one subscriber. -/
  | worker (i : Nat)
  /-- One cycle of a resource. -/
  | cycle (i : Nat)
  /-- A restart on the calendar. -/
  | restart (i : Nat)
  /-- Waits for a running resource to become ready. -/
  | confirmation (i : Nat)
  /-- Empties the queue of the record store. -/
  | writer
  /-- Sweeps the record store and gives signs of life. -/
  | keeper
deriving DecidableEq

/-- Where a cycle stands. -/
inductive CycleStage where
  /-- Not begun. -/
  | fresh
  /-- Waits for what its resource depends on; nothing yet before it first looks. -/
  | gated (wait : Option Wait)
  /-- In a hook, with the acts left, the end of the sleep it is in, and how the hooks before it
  ended. -/
  | inside (hook : Hook) (acts : List Act) (wake : Option Nat) (exit : Exit)
  /-- Finished. -/
  | finished
deriving DecidableEq

/-- One cycle of a resource. -/
structure Cycle where
  /-- The place of the resource. -/
  place : Nat
  /-- The cycle was told to end. -/
  cancelled : Bool := false
  /-- Where it stands. -/
  stage : CycleStage := .fresh
deriving DecidableEq

/-- Where a restart stands. -/
inductive RestartStage where
  /-- Not begun. -/
  | fresh (delay : Span)
  /-- Waits for its moment. -/
  | sleeping (wake : Nat)
  /-- Waits for the end of the cycle before. -/
  | joining (cycle : Nat)
  /-- Finished. -/
  | finished
deriving DecidableEq

/-- A restart on the calendar. -/
structure Restart where
  /-- The place of the resource. -/
  place : Nat
  /-- Where it stands. -/
  stage : RestartStage
deriving DecidableEq

/-- Where a confirmation stands. -/
inductive ConfirmationStage where
  /-- Not begun. -/
  | fresh
  /-- Waits for readiness. -/
  | waiting (wait : Wait)
  /-- Finished. -/
  | finished
deriving DecidableEq

/-- The confirmation that a running resource has become ready. -/
structure Confirmation where
  /-- The place of the resource. -/
  place : Nat
  /-- Where it stands. -/
  stage : ConfirmationStage := .fresh
deriving DecidableEq

/-- A watcher on the bus. -/
structure Watcher where
  /-- The event it takes next. -/
  next : Nat
  /-- It has ended. -/
  isOver : Bool := false
deriving DecidableEq

/-- Where the relay stands. -/
inductive RelayStage where
  /-- Takes events off the bus. -/
  | listening
  /-- Has closed the queues and waits for the workers to end. -/
  | joining
  /-- Finished. -/
  | finished
deriving DecidableEq

/-- The relay on the bus. -/
structure Relay where
  /-- The event it takes next. -/
  next : Nat
  /-- It was told to stop. -/
  stop : Bool := false
  /-- Where it stands. -/
  stage : RelayStage := .listening
deriving DecidableEq

/-- How a run ended. -/
inductive RunEnd where
  | ok
  | error (e : RunError)
  /-- The run itself panicked: it returns nothing, and whoever waits for it gets the panic. -/
  | panicked (message : String)
deriving DecidableEq

/-- What a run knows once the shutdown has begun. -/
structure Shutting where
  /-- The watcher it started. -/
  watcher : Nat
  /-- It started the relay. -/
  hasRelay : Bool
  /-- What began the shutdown. -/
  cause : Option Cause
  /-- Who was not ready when an escalation began. -/
  report : Option (List Unready)
  /-- Why no signals could be heard, if that is what it has heard first. -/
  deaf : Option String
  /-- Names of the resources that did not stop in time, in the order in which they were given
  up. -/
  stuck : List String := []
deriving DecidableEq

/-- Where the host stands. -/
inductive HostStage where
  /-- There is no run. -/
  | absent
  /-- A run was asked for. -/
  | fresh
  /-- Everything is started; it waits for the shutdown. -/
  | serving (watcher : Nat) (hasRelay : Bool)
  /-- Stops resources, each with its cycle, until a deadline; the first of them was told to end. -/
  | stopping (run : Shutting) (deadline : Nat) (left : List (Nat × Nat))
  /-- Waits for the watcher to end. -/
  | joiningWatcher (run : Shutting)
  /-- Waits for the relay to end. -/
  | joiningRelay (run : Shutting)
  /-- Waits for the record store to be written, and closes its session if it is this run's to
  close. -/
  | closing (result : RunEnd) (ending : Option SessionEnd)
  /-- The run is over. -/
  | finished (result : RunEnd)
deriving DecidableEq

/-! ### Happenings -/

/-- What happens. -/
inductive Happening where
  /-- An event was published. -/
  | published (e : Event)
  /-- A resource noted a text. -/
  | noted (place : Nat) (text : String)
  /-- The shutdown was asked for. -/
  | asked (c : Cause) (admitted : Bool)
  /-- A task was started. -/
  | started (t : Task)
  /-- A task ended in good order. -/
  | ended (t : Task)
  /-- A task panicked. -/
  | broke (t : Task) (message : String)
  /-- A cycle was told to end. -/
  | cancelled (cycle : Nat)
  /-- A cycle was given up. -/
  | aborted (cycle : Nat)
  /-- A hook of a cycle was called. -/
  | called (cycle : Nat) (hook : Hook)
  /-- A hook of a cycle has ended. -/
  | returned (cycle : Nat) (hook : Hook) (exit : Exit)
  /-- A hook of a cycle panicked while it was called, and the cycle broke off. -/
  | flinched (cycle : Nat) (hook : Hook) (message : String)
  /-- A cycle or a confirmation saw these resources ready. -/
  | sawReady (t : Task) (places : List Nat)
  /-- The relay took the event in a position off the bus and offered it to every subscriber. -/
  | relayed (position : Nat)
  /-- The relay was told that it missed so many events from a position on. -/
  | missed (position count : Nat)
  /-- The resources stopped, or not all of them. -/
  | stopped (stuck : List String)
deriving DecidableEq

/-- A happening and its moment. -/
structure Entry where
  moment : Nat
  what : Happening
deriving DecidableEq

/-! ### The state -/

/-- What a supervisor keeps of a resource beside its lifecycle. -/
structure Member where
  /-- How often its start hook was called. -/
  starts : Nat := 0
  /-- Its restarts. -/
  account : Account := {}
  /-- Its current cycle. -/
  run : Option Nat := none
deriving DecidableEq, Inhabited

/-- Handlers for termination signals cannot be installed. -/
structure Deafness where
  /-- What the system says. -/
  reason : String
  /-- A host that finds the shutdown begun has looked for signals before. -/
  first : Bool
deriving DecidableEq

/-- Everything that changes while a supervisor runs. -/
structure State where
  /-- The moment, in milliseconds. -/
  now : Nat := 0
  /-- Lifecycles, shutdown and bus. -/
  ensemble : Ensemble
  /-- What else is kept of each resource. -/
  members : Array Member
  /-- No cycle may be started any more. -/
  stopping : Bool := false
  /-- A termination signal has come, or none can be waited for. -/
  signalled : Bool := false
  /-- Handlers for signals cannot be installed. -/
  deaf : Option Deafness := none
  /-- The run in progress. -/
  host : HostStage := .absent
  /-- Watchers, the latest last. -/
  watchers : Array Watcher := #[]
  /-- The relay, once there is one. -/
  relay : Option Relay := none
  /-- The subscribers' workers. -/
  fanout : Fanout
  /-- Cycles, the latest last. -/
  cycles : Array Cycle := #[]
  /-- Restarts, the latest last. -/
  restarts : Array Restart := #[]
  /-- Confirmations, the latest last. -/
  confirmations : Array Confirmation := #[]
  /-- The record store, if there is one. -/
  recorder : Option Recorder := none
  /-- How often the dice were rolled. -/
  rolls : Nat := 0
  /-- What has happened. -/
  chronicle : Array Entry := #[]

namespace State

/-- Before the first run. -/
def initial (S : Setup) (bus : Bus) (recorder : Option Recorder) (now : Nat) : State where
  now := now
  ensemble := .ofNames bus S.names
  members := Array.replicate S.posts.size {}
  fanout := .ofCount S.subscribers.size
  recorder := recorder

/-- Nothing was taken back: the chronicle and the bus of the later state extend those of the
earlier one. -/
structure Grows (s s' : State) : Prop where
  chronicle : ∃ more, s'.chronicle = s.chronicle ++ more
  bus : ∃ more, s'.ensemble.bus.sent = s.ensemble.bus.sent ++ more

/-! ### Small operations -/

/-- Enters a happening into the chronicle. -/
def enter (h : Happening) (s : State) : State :=
  { s with chronicle := s.chronicle.push ⟨s.now, h⟩ }

/-- Enters published events into the chronicle. -/
def enterAll (events : List Event) (s : State) : State :=
  events.foldl (fun s e ↦ s.enter (.published e)) s

/-- Publishes an event. -/
def publish (e : Event) (s : State) : State :=
  enter (.published e) { s with ensemble := s.ensemble.publish [e] }

/-- Publishes events in order. -/
def publishAll (events : List Event) (s : State) : State :=
  events.foldl (fun s e ↦ s.publish e) s

/-- The shutdown has begun. -/
def isRequested (s : State) : Bool := s.ensemble.shutdown.isRequested

/-- Asks for the shutdown; whether this began it. -/
def request (c : Cause) (s : State) : Bool × State :=
  let (admitted, events, ensemble) := s.ensemble.request c
  (admitted, (enterAll events { s with ensemble := ensemble }).enter (.asked c admitted))

/-- Marks the resource in a place. -/
def mark (place : Nat) (m : Mark) (s : State) : Except IllegalMove State :=
  match s.ensemble.mark place m with
  | .error e => .error e
  | .ok (events, ensemble) => .ok (enterAll events { s with ensemble := ensemble })

/-- Marks the resource in a place; an illegal mark changes nothing. -/
def tryMark (place : Nat) (m : Mark) (s : State) : State :=
  match s.mark place m with
  | .ok s' => s'
  | .error _ => s

/-- The lifecycle in a place. -/
def lifecycle? (s : State) (place : Nat) : Option Lifecycle := s.ensemble.members[place]?

/-- The account of a place. -/
def account (s : State) (place : Nat) : Account := ((s.members[place]?).map (·.account)).getD {}

/-- Changes what is kept of a place. -/
def modifyMember (place : Nat) (f : Member → Member) (s : State) : State :=
  { s with members := s.members.modify place f }

/-- Changes the account of a place. -/
def setAccount (place : Nat) (a : Account) (s : State) : State :=
  s.modifyMember place fun m ↦ { m with account := a }

/-- Changes where a cycle stands. -/
def setCycle (i : Nat) (stage : CycleStage) (s : State) : State :=
  { s with cycles := s.cycles.modify i fun c ↦ { c with stage := stage } }

/-- Changes where a restart stands. -/
def setRestart (i : Nat) (stage : RestartStage) (s : State) : State :=
  { s with restarts := s.restarts.modify i fun r ↦ { r with stage := stage } }

/-- Changes where a confirmation stands. -/
def setConfirmation (i : Nat) (stage : ConfirmationStage) (s : State) : State :=
  { s with confirmations := s.confirmations.modify i fun c ↦ { c with stage := stage } }

/-- A cycle is over, or there never was one. -/
def cycleIsOver (s : State) (i : Nat) : Bool := s.cycles[i]?.all (·.stage = .finished)

/-- Tells a cycle to end. -/
def cancelCycle (i : Nat) (s : State) : State :=
  enter (.cancelled i) { s with cycles := s.cycles.modify i fun c ↦ { c with cancelled := true } }

/-- Starts a cycle of the resource in a place. -/
def startCycle (place : Nat) (s : State) : State :=
  let i := s.cycles.size
  ({ s with cycles := s.cycles.push { place := place } }.modifyMember place
    fun m ↦ { m with run := some i }).enter (.started (.cycle i))

/-- Puts a restart on the calendar. -/
def startRestart (place : Nat) (delay : Span) (s : State) : State :=
  { s with restarts := s.restarts.push ⟨place, .fresh delay⟩ }.enter
    (.started (.restart s.restarts.size))

/-- Begins to wait for a running resource to become ready. -/
def startConfirmation (place : Nat) (s : State) : State :=
  { s with confirmations := s.confirmations.push { place := place } }.enter
    (.started (.confirmation s.confirmations.size))

end State

end Supervision
