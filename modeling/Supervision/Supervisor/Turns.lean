import Supervision.Supervisor.Step

/-!
# Taking turns

One way of sharing a processor among the tasks of a supervisor. A task whose turn has come goes on
until it has to wait; then the next in the queue has its turn. One that waits joins the queue, at
its end, as soon as it can go on. A visitor acts from outside at set moments, and takes turns like
everybody else.

Of those whom a step lets go on, the ones that wait for readiness come first, then those that listen
to the bus, then the rest; a step that begins the shutdown lets the listeners go first. Among
equals, and when it is time that lets them go on, the one that has waited longest comes first.

Time stands still until nobody can go on (`Turns.isSettled`). A termination signal is heard only
then, but still before time moves.
-/

namespace Supervision

/-! ### The visitor -/

/-- What a visitor does. -/
inductive Errand where
  /-- Does something to the supervisor. -/
  | deed (d : Deed)
  /-- Asks how the resources stand. -/
  | look
deriving DecidableEq

/-- How a resource stands. -/
structure Standing where
  name : String
  status : Status
  readiness : Readiness
  /-- Restarts since it last recovered. -/
  attempts : Nat
deriving DecidableEq

/-- What a visitor is told. -/
inductive Reply where
  /-- Whether the request began the shutdown. -/
  | admitted (began : Bool)
  /-- It was done. -/
  | done
  /-- It was not done. -/
  | refused (e : IllegalMove)
  /-- How the resources stand, in start order. -/
  | standings (all : List Standing)
deriving DecidableEq

namespace State

/-- How the resources stand, in start order. -/
def standings (s : State) : List Standing :=
  (List.range s.ensemble.members.size).filterMap fun place ↦
    (s.lifecycle? place).map fun c ↦
      ⟨c.name, c.status, c.readiness, (s.account place).attempts⟩

/-- What a visitor with an errand is told. -/
def reply (e : Errand) (s : State) : Reply :=
  match e with
  | .look => .standings s.standings
  | .deed (.request c) => .admitted (s.request c).1
  | .deed (.mark place m) =>
    match s.mark place m with
    | .ok _ => .done
    | .error e => .refused e
  | .deed _ => .done

/-- An errand is run. -/
def run (e : Errand) (s : State) : State :=
  match e with
  | .look => s
  | .deed d => s.undergo d

/-- A task has nothing more to do, ever. -/
def isOver (s : State) : Task → Bool
  | .host => s.isIdle
  | .watcher i => s.watcherIsOver i
  | .relay => s.relayIsOver
  | .worker i => s.fanout.workers[i]?.all (·.isOver)
  | .cycle i => s.cycleIsOver i
  | .restart i => s.restarts[i]?.all (·.stage = .finished)
  | .confirmation i => s.confirmations[i]?.all (·.stage = .finished)
  | .writer => s.writerIsOver
  | .keeper => s.recorder.all (·.finished)

end State

/-! ### Turns -/

/-- Who takes turns. -/
inductive Actor where
  | task (t : Task)
  | visitor
deriving DecidableEq

/-- It listens to the bus. -/
def Task.listens : Task → Bool
  | .watcher _ | .relay => true
  | _ => false

/-- It may wait for readiness. -/
def Task.awaitsReadiness : Task → Bool
  | .cycle _ | .confirmation _ => true
  | _ => false

/-- A supervisor with a visitor, and whose turn it is. -/
structure Turns where
  /-- The supervisor. -/
  state : State
  /-- Whose turn it is. -/
  current : Option Actor := none
  /-- Whose turns come next. -/
  queue : List Actor := []
  /-- Those who wait, the longest first. -/
  waiting : List Actor := []
  /-- What the visitor still has to do, and when. -/
  agenda : List (Nat × Errand) := []
  /-- What the visitor was told. -/
  replies : Array Reply := #[]

namespace Turns

/-- Somebody can go on now. -/
def isEnabled (t : Turns) : Actor → Bool
  | .task k => t.state.isEnabled k
  | .visitor => t.agenda.head?.any (·.1 ≤ t.state.now)

/-- Somebody has nothing more to do, ever. -/
def isOver (t : Turns) : Actor → Bool
  | .task k => t.state.isOver k
  | .visitor => t.agenda.isEmpty

/-- The moment at which somebody goes on by himself. -/
def timerOf? (t : Turns) : Actor → Option Nat
  | .task k => t.state.timer? k
  | .visitor => t.agenda.head?.map (·.1)

/-- What a change of a supervisor is measured against. -/
structure Glance where
  /-- The moment. -/
  now : Nat
  /-- The shutdown has begun. -/
  requested : Bool
  /-- Entries of the chronicle. -/
  entries : Nat
deriving DecidableEq

/-- A glance at a supervisor. -/
def glance (s : State) : Glance := ⟨s.now, s.isRequested, s.chronicle.size⟩

/-- The order in which those go on whom the change since a glance has let go on. -/
def wakeOrder (before : Glance) (s : State) (woken : List Actor) : List Actor :=
  let listens : Actor → Bool
    | .task k => k.listens
    | .visitor => false
  let awaits : Actor → Bool
    | .task k => k.awaitsReadiness
    | .visitor => false
  let (listeners, others) := woken.partition listens
  if before.now ≠ s.now then woken
  else if before.requested ≠ s.isRequested then listeners ++ others
  else
    let (waiters, rest) := others.partition awaits
    waiters ++ listeners ++ rest

/-- The tasks started since a glance. -/
def startedSince (before : Glance) (s : State) : List Actor :=
  (s.chronicle.extract before.entries s.chronicle.size).toList.filterMap fun e ↦
    match e.what with
    | .started t => some (.task t)
    | _ => none

/-- The host has nothing to go on with but a signal that has come. -/
def signalWaits (s : State) : Bool :=
  match s.host with
  | .serving _ _ => s.signalled && !s.isRequested
  | _ => false

/-- Somebody who waits can go on now. Only a signal is not heard as long as others go on. -/
def isRoused (t : Turns) (a : Actor) : Bool :=
  t.isEnabled a && !(a = .task .host && signalWaits t.state)

/-- After a change since a glance, those who can go on now, and the new tasks, join the queue. -/
def rouse (before : Glance) (t : Turns) : Turns :=
  let (woken, waiting) := t.waiting.partition t.isRoused
  { t with
    queue := t.queue ++ wakeOrder before t.state woken ++ startedSince before t.state
    waiting := waiting }

/-- The supervisor changes. -/
def change (f : State → State) (t : Turns) : Turns :=
  let before := glance t.state
  { t with state := f t.state }.rouse before

/-- The visitor runs an errand. -/
def visit (e : Errand) (t : Turns) : Turns :=
  { t with replies := t.replies.push (t.state.reply e) }.change (·.run e)

/-- Somebody who can go on takes one step. -/
def act (S : Setup) (a : Actor) (t : Turns) : Turns :=
  match a with
  | .task k => t.change (·.step S k)
  | .visitor =>
    match t.agenda with
    | [] => t
    | (_, e) :: rest => { t with agenda := rest }.visit e

/-- The one whose turn it is takes a step, or gives up his turn when he has to wait. -/
def next (S : Setup) (t : Turns) : Turns :=
  match t.current with
  | some a =>
    if t.isEnabled a then t.act S a
    else
      { t with
        current := none
        waiting := if t.isOver a then t.waiting else t.waiting ++ [a] }
  | none =>
    match t.queue with
    | [] => t
    | a :: rest => { t with current := some a, queue := rest }

/-- Nobody can go on now. -/
def isSettled (t : Turns) : Bool := t.current.isNone && t.queue.isEmpty

/-- A signal has come, and the host waits. -/
def hasSignal (t : Turns) : Bool := signalWaits t.state && t.waiting.contains (.task .host)

/-- The host hears the signal. -/
def hear (t : Turns) : Turns :=
  { t with
    queue := t.queue ++ [.task .host]
    waiting := t.waiting.filter (· ≠ .task .host) }

/-- The next moment at which somebody goes on by himself. -/
def timer? (t : Turns) : Option Nat := (t.waiting.filterMap t.timerOf?).min?

/-- Time passes. -/
def passTo (moment : Nat) (t : Turns) : Turns := t.change (·.passTo moment)

/-- Somebody leaves. -/
def dismiss (a : Actor) (t : Turns) : Turns :=
  { t with
    current := if t.current = some a then none else t.current
    queue := t.queue.filter (· ≠ a)
    waiting := t.waiting.filter (· ≠ a) }

end Turns

end Supervision
