import Supervision.Supervisor.Feed
import Supervision.Supervisor.Host

/-!
# Steps of a supervisor

A supervisor moves in three ways: a task that can go on takes a step (`State.step`), somebody
outside does something (`Deed`), or, when no task can go on, time passes up to the next timer.
`Step` allows tasks that can go on to take their steps in any order; whatever is shown of it holds
for every way in which tasks share one thread. A step goes up to where the task waits again, so
nobody is held up in the middle of one, nor does somebody outside do something there, as he may from
another thread. Which deeds are done is left open: a statement about a supervisor names those it
admits.

* `Reaches.keeps` — what every step keeps is kept for good.
-/

namespace Supervision

/-- What is done to a supervisor from outside. -/
inductive Deed where
  /-- Asks for the shutdown. -/
  | request (c : Cause)
  /-- Sends a termination signal. -/
  | signal
  /-- Handlers for signals cannot be installed any more, or can again; a run that has installed them
  keeps them. -/
  | deafen (why : Option Deafness)
  /-- Publishes an event; whoever holds the bus may, a hook too. -/
  | publish (e : Event)
  /-- Marks the resource in a place. -/
  | mark (place : Nat) (m : Mark)
  /-- Asks for a run, unless one is in progress. -/
  | call
  /-- Gives up the run in progress; everything it started goes on. -/
  | abandon
deriving DecidableEq

namespace State

/-- A deed is done. -/
def undergo (d : Deed) (s : State) : State :=
  match d with
  | .request c => (s.request c).2
  | .signal => { s with signalled := true }
  | .deafen why =>
    match s.host with
    | .serving _ _ => s
    | _ => { s with deaf := why }
  | .publish e => s.publish e
  | .mark place m => s.tryMark place m
  | .call => if s.isIdle then s.startRun else s
  | .abandon => if s.isIdle then s else s.abandonRun

/-- Nothing else changes when signals cannot be heard any more. -/
theorem exists_undergo_deafen (why : Option Deafness) (s : State) :
    ∃ deaf, s.undergo (.deafen why) = { s with deaf := deaf } := by
  unfold undergo
  dsimp only
  split
  · exact ⟨s.deaf, rfl⟩
  · exact ⟨why, rfl⟩

/-- A task can go on now. -/
def isEnabled (s : State) : Task → Bool
  | .host => s.hostIsEnabled
  | .watcher i => s.watcherIsEnabled i
  | .relay => s.relayIsEnabled
  | .worker i => s.fanout.isEnabled s.now i
  | .cycle i => s.cycleIsEnabled i
  | .restart i => s.restartIsEnabled i
  | .confirmation i => s.confirmationIsEnabled i
  | .writer => s.writerIsEnabled
  | .keeper => s.keeperIsEnabled

/-- One step of a task. -/
def step (S : Setup) (s : State) : Task → State
  | .host => s.stepHost S
  | .watcher i => s.stepWatcher S i
  | .relay => s.stepRelay S
  | .worker i => s.stepWorker S i
  | .cycle i => s.stepCycle S i
  | .restart i => s.stepRestart i
  | .confirmation i => s.stepConfirmation S i
  | .writer => s.stepWriter
  | .keeper => s.stepKeeper S

/-- The moment at which a task goes on by itself. -/
def timer? (s : State) : Task → Option Nat
  | .host => s.hostTimer?
  | .worker i => (s.fanout.workers[i]?).bind (·.timer?)
  | .cycle i => (s.cycles[i]?).bind (·.timer?)
  | .restart i => (s.restarts[i]?).bind (·.timer?)
  | .confirmation i => (s.confirmations[i]?).bind (·.timer?)
  | .keeper => s.keeperTimer?
  | .watcher _ | .relay | .writer => none

/-- Time passes. -/
def passTo (moment : Nat) (s : State) : State := { s with now := moment }

end State

/-- One step of a supervisor: a task's, in any order, or an admitted deed, or of time when no task
can go on. -/
inductive Step (S : Setup) (admits : Deed → Prop) : State → State → Prop where
  | turn {s : State} (t : Task) (h : s.isEnabled t = true) : Step S admits s (s.step S t)
  | deed {s : State} (d : Deed) (h : admits d) : Step S admits s (s.undergo d)
  | pass {s : State} (moment : Nat) (later : s.now < moment)
      (idle : ∀ t, s.isEnabled t = false)
      (timers : ∀ t m, s.timer? t = some m → moment ≤ m) : Step S admits s (s.passTo moment)

/-- A state that a supervisor can reach from another when only admitted deeds are done to it. -/
inductive Reaches (S : Setup) (admits : Deed → Prop) : State → State → Prop where
  | refl (s : State) : Reaches S admits s s
  | step {s₁ s₂ s₃ : State} (before : Reaches S admits s₁ s₂) (last : Step S admits s₂ s₃) :
    Reaches S admits s₁ s₃

/-- What every step keeps is kept for good. -/
theorem Reaches.keeps {S : Setup} {admits : Deed → Prop} {P : State → Prop}
    (step : ∀ {s s'}, P s → Step S admits s s' → P s') {s s' : State} (h : Reaches S admits s s') :
    P s → P s' := by
  induction h with
  | refl => exact id
  | step _ last ih => exact fun hs ↦ step (ih hs) last

end Supervision
