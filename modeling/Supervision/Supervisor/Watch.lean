import Supervision.Supervisor.Cycle

/-!
# Watching, restarting, escalating

A watcher takes events off the bus. A resource that failed is restarted after a delay, as long as it
has restarts left; one that has none left, or that crashed, ends the process. When a resource runs,
a confirmation waits for it to become ready in time, and if it does and is still running then, its
count of restarts begins anew. A watcher that missed events looks at every resource instead
(`rescan`). It ends when the shutdown begins.

A restart on the calendar (`Restart`) waits for its moment, ends the cycle before and waits for that
to be over, and starts the next one, unless the shutdown came first. A delay whose end is beyond
every clock, or beyond the last tick of the timer, is cut short (`Span.wakeFrom`).
-/

namespace Supervision

/-- What came of an action of a watcher: the state after it, and what the watcher broke over, if it
did. -/
structure Watched where
  state : State
  broke : Option Span.Unreadable := none

namespace State

/-! ### The watcher -/

/-- Ends the process over a resource, unless the shutdown has begun. -/
def escalate (resource reason : String) (s : State) : State :=
  if s.isRequested then s else (s.request (.escalated resource reason)).2

/-- What is said of a resource that has no restarts left. -/
def exhaustedText (attempts : Nat) (reason : String) : String :=
  "restart attempts exhausted after " ++ toString attempts ++ ": " ++ reason

/-- What a watcher decides about the resource in a place, which has failed, and the state with the
account after it; the delay of a restart may have no value. -/
def judge (S : Setup) (place : Nat) (s : State) : Except Span.Unreadable (Decision × State) :=
  let seen := ((s.lifecycle? place).map (·.failures)).getD 0
  match (s.account place).onFailure S.settings (S.dice s.rolls) seen with
  | .error e => .error e
  | .ok (decision, account) =>
    let s := s.setAccount place account
    match decision with
    | .restart _ _ => .ok (decision, { s with rolls := s.rolls + 1 })
    | _ => .ok (decision, s)

/-- Says what was decided about a resource, and does it. -/
def announce (resource reason : String) (place : Nat) (decision : Decision) (s : State) : State :=
  match decision with
  | .handled | .pending => s
  | .exhausted attempts =>
    (s.publish (.exhausted resource attempts reason)).escalate resource
      (exhaustedText attempts reason)
  | .restart attempt delay =>
    (s.publish (.scheduled resource attempt delay reason)).startRestart place delay

/-- Acts on the failure of a resource, unless the delay of its restart has no value. -/
def onFailed (S : Setup) (resource reason : String) (s : State) : Watched :=
  if s.isRequested then ⟨s, none⟩
  else
    match S.place? resource with
    | none => ⟨s, none⟩
    | some place =>
      match s.judge S place with
      | .error e => ⟨s, some e⟩
      | .ok (decision, s) => ⟨s.announce resource reason place decision, none⟩

/-- Acts on a resource that runs. -/
def onRunning (S : Setup) (resource : String) (s : State) : State :=
  match S.place? resource with
  | none => s
  | some place => s.startConfirmation place

/-- Acts on an event. -/
def onEvent (S : Setup) (e : Event) (s : State) : Watched :=
  if e.kind = .transition then
    match e.move with
    | none => ⟨s, none⟩
    | some m =>
      let reason := m.failure.map (·.message)
      match m.target with
      | .failed => s.onFailed S m.resource (reason.getD "failed")
      | .running => ⟨s.onRunning S m.resource, none⟩
      | .crashed => ⟨s.escalate m.resource (reason.getD "crashed"), none⟩
      | _ => ⟨s, none⟩
  else ⟨s, none⟩

/-- Looks at the resource in a place as a watcher does that may have missed news of it. -/
def rescanOne (S : Setup) (place : Nat) (s : State) : Watched :=
  match s.lifecycle? place with
  | none => ⟨s, none⟩
  | some c =>
    let reason := c.lastFailure.map (·.message)
    match c.status with
    | .failed => s.onFailed S c.name (reason.getD "failed")
    | .crashed => ⟨s.escalate c.name (reason.getD "crashed"), none⟩
    | .running => ⟨if 0 < (s.account place).attempts then s.onRunning S c.name else s, none⟩
    | _ => ⟨s, none⟩

/-- Looks at the resources in some places, one after the other, until the watcher breaks. -/
def rescanFrom (S : Setup) (s : State) : List Nat → Watched
  | [] => ⟨s, none⟩
  | place :: rest =>
    match s.rescanOne S place with
    | ⟨s, none⟩ => rescanFrom S s rest
    | broken => broken

/-- Looks at every resource in start order. -/
def rescan (S : Setup) (s : State) : Watched := s.rescanFrom S (List.range S.posts.size)

/-- Moves watcher `i` on. -/
def setWatcher (i : Nat) (w : Watcher) (s : State) : State :=
  { s with watchers := s.watchers.setIfInBounds i w }

/-- Watcher `i` goes on with what came of its action, or breaks over it. -/
def watcherAfter (i : Nat) (w : Watcher) (r : Watched) : State :=
  match r.broke with
  | none => r.state
  | some e => (r.state.setWatcher i { w with isOver := true }).enter (.broke (.watcher i) e.message)

/-- Watcher `i` has something to do. -/
def watcherIsEnabled (s : State) (i : Nat) : Bool :=
  match s.watchers[i]? with
  | none => false
  | some w => !w.isOver && (s.isRequested || s.ensemble.bus.receive w.next ≠ .nothing)

/-- One step of watcher `i`. -/
def stepWatcher (S : Setup) (i : Nat) (s : State) : State :=
  match s.watchers[i]? with
  | none => s
  | some w =>
    if w.isOver then s
    else if s.isRequested then
      (s.setWatcher i { w with isOver := true }).enter (.ended (.watcher i))
    else
      match s.ensemble.bus.receive w.next with
      | .nothing => s
      | .event e next =>
        let w := { w with next := next }
        watcherAfter i w ((s.setWatcher i w).onEvent S e)
      | .missed _ next =>
        let w := { w with next := next }
        watcherAfter i w ((s.setWatcher i w).rescan S)

/-! ### Restarts -/

/-- Ends restart `i`. -/
def endRestart (i : Nat) (s : State) : State :=
  (s.setRestart i .finished).enter (.ended (.restart i))

/-- Restart `i` starts the next cycle, unless everything is being stopped. -/
def respawn (i place : Nat) (s : State) : State :=
  if s.stopping then s.endRestart i else (s.startCycle place).endRestart i

/-- The moment of restart `i` has come, or it is called off: the account is free for the next
failure, and the cycle before is told to end. -/
def release (i place : Nat) (s : State) : State :=
  let s := s.setAccount place (s.account place).release
  if s.isRequested then s.endRestart i
  else
    match (s.members[place]?).bind (·.run) with
    | some c =>
      ((s.modifyMember place fun m ↦ { m with run := none }).cancelCycle c).setRestart i
        (.joining c)
    | none => s.respawn i place

/-- Restart `i` can go on now. -/
def restartIsEnabled (s : State) (i : Nat) : Bool :=
  match s.restarts[i]? with
  | none => false
  | some r =>
    match r.stage with
    | .fresh _ => true
    | .sleeping wake => s.isRequested || wake ≤ s.now
    | .joining c => s.cycleIsOver c
    | .finished => false

/-- One step of restart `i`. -/
def stepRestart (i : Nat) (s : State) : State :=
  match s.restarts[i]? with
  | none => s
  | some r =>
    match r.stage with
    | .fresh delay =>
      if s.isRequested || delay.millisUp = 0 then s.release i r.place
      else s.setRestart i (.sleeping (delay.wakeFrom s.now))
    | .sleeping wake => if s.isRequested || wake ≤ s.now then s.release i r.place else s
    | .joining c => if s.cycleIsOver c then s.respawn i r.place else s
    | .finished => s

/-! ### Confirmations -/

/-- Ends confirmation `i`. -/
def endConfirmation (i : Nat) (s : State) : State :=
  (s.setConfirmation i .finished).enter (.ended (.confirmation i))

/-- Takes the count of restarts of a place, which begins anew. -/
def takeCount (place : Nat) (s : State) : Nat × State :=
  ((s.account place).attempts, s.setAccount place (s.account place).recover)

/-- Says that the resource in a place has recovered from so many restarts, if there were any. -/
def tellRecovery (S : Setup) (place attempts : Nat) (s : State) : State :=
  if 0 < attempts then
    s.publish (.recovered (((S.posts[place]?).map (·.name)).getD "") attempts)
  else s

/-- The resource in a place is ready: if it is still running, its count of restarts begins anew. -/
def confirm (S : Setup) (place : Nat) (s : State) : State :=
  if s.ensemble.status? place = some .running then
    let (attempts, s) := s.takeCount place
    s.tellRecovery S place attempts
  else s

/-- Confirmation `i` looks at its resource. -/
def confirmIn (S : Setup) (i place : Nat) (before : Wait) (s : State) : State :=
  let w := s.ensemble.look s.now before
  match w.result? with
  | none => s.setConfirmation i (.waiting w)
  | some .ready =>
    ((s.enter (.sawReady (.confirmation i) [place])).confirm S place).endConfirmation i
  | some _ => s.endConfirmation i

/-- Confirmation `i` can go on now. -/
def confirmationIsEnabled (s : State) (i : Nat) : Bool :=
  match s.confirmations[i]? with
  | none => false
  | some c =>
    match c.stage with
    | .fresh => true
    | .waiting w => s.ensemble.look s.now w ≠ w
    | .finished => false

/-- One step of confirmation `i`. -/
def stepConfirmation (S : Setup) (i : Nat) (s : State) : State :=
  match s.confirmations[i]? with
  | none => s
  | some c =>
    match c.stage with
    | .fresh => s.confirmIn S i c.place (.start s.now S.settings.confirmTimeout [c.place])
    | .waiting w => s.confirmIn S i c.place w
    | .finished => s

end State

/-- The moment at which a restart goes on by itself. -/
def Restart.timer? (r : Restart) : Option Nat :=
  match r.stage with
  | .sleeping wake => some wake
  | _ => none

/-- The moment at which a confirmation goes on by itself. -/
def Confirmation.timer? (c : Confirmation) : Option Nat :=
  match c.stage with
  | .waiting w => some w.deadline
  | _ => none

end Supervision
