import Supervision.Supervisor.State

/-!
# One cycle of a resource

A cycle marks its resource as starting, waits until everything it depends on has been seen ready,
and calls the start hook. If that ends in good order the resource is running and is served. The stop
hook is called in any case once the start hook was. At last the resource is settled: stopped,
failed or crashed by how its hooks ended, unless it settled itself before.

A cycle that cannot start because something it depends on does not become ready in time fails; one
that is cancelled or meets the shutdown while it waits stops.

A hook that panics while it is called breaks the cycle off: no later hook is called, and the resource
is not settled.
-/

namespace Supervision

/-- What a cycle makes of its resource in the end. -/
def Exit.mark : Exit → Mark
  | .clean | .error .cancelled => .stopped
  | .error (.failed reason) => .failed (HookError.failed reason).failure
  | .error (.fatal reason) => .crashed (HookError.fatal reason).failure
  | .panicked message => .failed (.plain "panic" ("panic: " ++ message))

/-- The failure of a resource whose dependencies were not ready in time. -/
def Pending.failure (ps : List Pending) : Failure :=
  .plain "dependencies_not_ready" ("dependencies not ready: " ++ Pending.list ps)

/-- A deadline so far away lies beyond every clock. -/
def Span.isBeyondClocks (d : Span) : Bool := 1 <<< 63 ≤ d.seconds

/-- What is said of a deadline beyond every clock. -/
def deadlineOverflow : String := "overflow when adding duration to instant"

/-- The last tick of a timer, in milliseconds. -/
def lastTick : Nat := UInt64.size - 3

/-- How long a sleep takes whose end lies beyond every clock: some thirty years. -/
def Span.farAway : Span := .ofSecs (86400 * 365 * 30)

/-- A sleep that begins at a moment ends on time: its end is on the clock, and there is a tick for
it. -/
def Span.FitsTimer (d : Span) (now : Nat) : Prop :=
  d.isBeyondClocks = false ∧ now + d.millisUp ≤ lastTick

/-- When a sleep ends that begins at a moment. -/
def Span.wakeFrom (d : Span) (now : Nat) : Nat :=
  min (now + (if d.isBeyondClocks then farAway else d).millisUp) lastTick

namespace Span

variable {d : Span} {now later : Nat}

/-- A sleep that ends on time lasts as long as it should. -/
theorem FitsTimer.wakeFrom_eq (h : d.FitsTimer now) : d.wakeFrom now = now + d.millisUp := by
  rw [wakeFrom, h.1, if_neg Bool.false_ne_true, Nat.min_eq_left h.2]

/-- A sleep that begins later does not end before. -/
theorem wakeFrom_mono (h : now ≤ later) : d.wakeFrom now ≤ d.wakeFrom later := by
  unfold wakeFrom
  omega

/-- A sleep that takes no time has ended when it begins. -/
theorem wakeFrom_le_of_millisUp_eq_zero (none : d.millisUp = 0) : d.wakeFrom now ≤ now := by
  have near : d.isBeyondClocks = false := by
    refine decide_eq_false ?_
    unfold millisUp at none
    rw [seconds, perSecond, Nat.one_shiftLeft]
    omega
  rw [wakeFrom, near, if_neg Bool.false_ne_true, none]
  exact Nat.min_le_left _ _

end Span

/-- What the later of two looks saw ready first. -/
def Wait.newlyReady (before after : Wait) : List Nat :=
  ((before.entries.zip after.entries).filter fun (b, a) ↦
    b.2.isNone && a.2 == some .ready).map (·.1.1)

namespace Cycle

/-- The cycle's cancellation reaches a hook; the stop hook is left in peace. -/
def reaches (c : Cycle) (hook : Hook) : Bool := c.cancelled && hook ≠ .stop

/-- An act can go on now. -/
def actIsEnabled (c : Cycle) (now : Nat) (hook : Hook) (wake : Option Nat) : Act → Bool
  | .sleep _ => wake.all (· ≤ now)
  | .wait _ => c.reaches hook || wake.all (· ≤ now)
  | .untilCancelled => c.reaches hook
  | .hang => false
  | _ => true

/-- The moment at which the cycle goes on by itself. -/
def timer? (c : Cycle) : Option Nat :=
  match c.stage with
  | .gated (some w) => some w.deadline
  | .inside _ _ wake _ => wake
  | _ => none

end Cycle

namespace State

/-- Cycle `i` can go on now. -/
def cycleIsEnabled (s : State) (i : Nat) : Bool :=
  match s.cycles[i]? with
  | none => false
  | some c =>
    match c.stage with
    | .fresh | .gated none => true
    | .gated (some w) => c.cancelled || s.ensemble.look s.now w ≠ w
    | .inside _ [] _ _ => true
    | .inside hook (a :: _) wake _ => c.actIsEnabled s.now hook wake a
    | .finished => false

/-- Ends cycle `i`. -/
def endCycle (i : Nat) (s : State) : State := (s.setCycle i .finished).enter (.ended (.cycle i))

/-- Calls a hook in cycle `i`. -/
def callHook (S : Setup) (i place : Nat) (hook : Hook) (exit : Exit) (s : State) : State :=
  let s := if hook = .start then s.modifyMember place fun m ↦ { m with starts := m.starts + 1 }
    else s
  let starts := ((s.members[place]?).map (·.starts)).getD 0
  let behaviour := ((S.posts[place]?).map fun p ↦ p.behaviour (starts - 1)).getD {}
  (s.setCycle i (.inside hook (behaviour.script hook) none exit)).enter (.called i hook)

/-- Settles a resource at the end of a cycle, unless it has settled itself. -/
def settle (place : Nat) (exit : Exit) (s : State) : State :=
  if (s.ensemble.status? place).all (·.isTerminal) then s else s.tryMark place exit.mark

/-- A hook of cycle `i` has ended; `exit` is how the hooks before the stop hook ended. -/
def leaveHook (S : Setup) (i place : Nat) (hook : Hook) (result exit : Exit) (s : State) : State :=
  let s := s.enter (.returned i hook result)
  match hook with
  | .start =>
    if result = .clean then
      match s.mark place .running with
      | .ok s => s.callHook S i place .serve .clean
      | .error _ => s.callHook S i place .stop .clean
    else s.callHook S i place .stop result
  | .serve => s.callHook S i place .stop result
  | .stop => (s.settle place exit).endCycle i

/-- Sleeps for so long. -/
def sleepIn (i : Nat) (hook : Hook) (a : Act) (rest : List Act) (ms : Nat) (wake : Option Nat)
    (exit : Exit) (s : State) : State :=
  match wake with
  | none =>
    if ms = 0 then s.setCycle i (.inside hook rest none exit)
    else s.setCycle i (.inside hook (a :: rest) (some (s.now + ms)) exit)
  | some t => if t ≤ s.now then s.setCycle i (.inside hook rest none exit) else s

/-- Does the next act of a hook in cycle `i`. -/
def doAct (S : Setup) (i : Nat) (c : Cycle) (hook : Hook) (a : Act) (rest : List Act)
    (wake : Option Nat) (exit : Exit) (s : State) : State :=
  let goOn (s : State) : State := s.setCycle i (.inside hook rest none exit)
  match a with
  | .sleep ms => s.sleepIn i hook a rest ms wake exit
  | .wait ms =>
    if c.reaches hook then s.leaveHook S i c.place hook (.error .cancelled) exit
    else s.sleepIn i hook a rest ms wake exit
  | .untilCancelled => if c.reaches hook then goOn s else s
  | .hang => s
  | .giveUp e => s.leaveHook S i c.place hook (.error e) exit
  | .panic p => s.leaveHook S i c.place hook (.panicked p.message) exit
  | .flinch p => (s.setCycle i .finished).enter (.flinched i hook p.message)
  | .mark m =>
    match s.mark c.place m with
    | .ok s => goOn s
    | .error e => goOn (s.enter (.noted c.place e.message))
  | .request cause =>
    let (admitted, s) := s.request cause
    goOn (s.enter (.noted c.place (if admitted then "shutdown true" else "shutdown false")))
  | .note text => goOn (s.enter (.noted c.place text))

/-- Cycle `i` looks at what its resource depends on. -/
def lookIn (S : Setup) (i place : Nat) (before : Wait) (s : State) : State :=
  let w := s.ensemble.look s.now before
  let seen := before.newlyReady w
  let s := if seen.isEmpty then s else s.enter (.sawReady (.cycle i) seen)
  match w.result? with
  | none => s.setCycle i (.gated (some w))
  | some .ready => s.callHook S i place .start .clean
  | some .shutdown => (s.tryMark place .stopped).endCycle i
  | some (.timedOut late) =>
    (s.tryMark place (.failed (Pending.failure (s.ensemble.pending late)))).endCycle i

/-- One step of cycle `i`. -/
def stepCycle (S : Setup) (i : Nat) (s : State) : State :=
  match s.cycles[i]? with
  | none => s
  | some c =>
    match c.stage with
    | .fresh =>
      match s.mark c.place .starting with
      | .ok s => s.setCycle i (.gated none)
      | .error _ => s.endCycle i
    | .gated wait? =>
      if c.cancelled then (s.tryMark c.place .stopped).endCycle i
      else
        match wait? with
        | some w => s.lookIn S i c.place w
        | none =>
          let needs := ((S.posts[c.place]?).map (·.needs)).getD []
          let timeout := S.settings.startupTimeout
          if !needs.isEmpty && timeout.isBeyondClocks then
            (s.setCycle i .finished).enter (.broke (.cycle i) deadlineOverflow)
          else s.lookIn S i c.place (.start s.now timeout needs)
    | .inside hook [] _ exit => s.leaveHook S i c.place hook .clean exit
    | .inside hook (a :: rest) wake exit => s.doAct S i c hook a rest wake exit
    | .finished => s

end State

end Supervision
