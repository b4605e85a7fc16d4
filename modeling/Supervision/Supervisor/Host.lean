import Supervision.Supervisor.Watch

/-!
# A run from start to end

The host starts a watcher, the relay if there is none yet, and one cycle for each resource in start
order, and waits for the shutdown or for a termination signal; if it cannot wait for signals it ends
the run by itself, and says so when the run ends well otherwise. Then it takes note of who is not ready, if the shutdown is an
escalation, and stops the resources in reverse start order: each is told to end only after the one
before it has ended or was given up, and all of that under one deadline. It says whether everything
stopped in time, waits for the watcher and the relay to end, and closes the session of the record
store.
-/

namespace Supervision

namespace State

/-- The resources that are not ready, in start order. -/
def unready (s : State) : List Unready :=
  (s.ensemble.members.toList.filter (!·.isReady)).map fun c ↦
    ⟨c.name, c.status, c.readiness.reason⟩

/-- The current cycles in reverse start order, each with the place of its resource. -/
def currentCycles (s : State) : List (Nat × Nat) :=
  ((List.range s.members.size).filterMap fun p ↦
    ((s.members[p]?).bind (·.run)).map (p, ·)).reverse

/-- Starts everything. A signal from before has nobody to hear it; without handlers the wait for one
is over at once. -/
def beginRun (S : Setup) (s : State) : State :=
  let hasRelay := s.relay.isNone
  let next := s.ensemble.bus.size
  let s := if hasRelay then { s with relay := some { next := next } }.enter (.started .relay) else s
  let i := s.watchers.size
  let s := { s with watchers := s.watchers.push { next := next } }.enter (.started (.watcher i))
  let s := (List.range S.posts.size).foldl (fun s place ↦ s.startCycle place) s
  { s with host := .serving i hasRelay, signalled := s.deaf.isSome }

/-- From now on no cycle is started, and none is current. -/
def close (s : State) : State :=
  { s with stopping := true, members := s.members.map fun (m : Member) ↦ { m with run := none } }

/-- Gives a cycle up. -/
def abortCycle (i : Nat) (s : State) : State := (s.setCycle i .finished).enter (.aborted i)

/-- Every resource has stopped or was given up. -/
def endStopping (run : Shutting) (s : State) : State :=
  let e := if run.stuck.isEmpty then Event.allStopped else .graceExceeded run.stuck
  { (s.enter (.stopped run.stuck)).publish e with host := .joiningWatcher run }

/-- Stops resources one after the other as far as that goes without waiting; `told` when the first
of them was told to end before. -/
def stopFrom (S : Setup) (run : Shutting) (deadline : Nat) (told : Bool) :
    List (Nat × Nat) → State → State
  | [], s => s.endStopping run
  | (place, c) :: rest, s =>
    let s := if told then s else s.cancelCycle c
    if s.cycleIsOver c then stopFrom S run deadline false rest s
    else if deadline ≤ s.now then
      let name := ((S.posts[place]?).map (·.name)).getD ""
      stopFrom S { run with stuck := run.stuck ++ [name] } deadline false rest (s.abortCycle c)
    else { s with host := .stopping run deadline ((place, c) :: rest) }

/-- What the shutdown begins with when nobody has asked for it. -/
def unaskedCause (s : State) : Cause :=
  if s.deaf.isSome then .requested "signal handlers unavailable" else .signal

/-- Why no signals could be heard, if the host takes note of that. It waits for a signal and for the
shutdown at the same time, and when both waits are over it goes by either. -/
def heardDeaf (s : State) : Option String :=
  (s.deaf.filter fun d ↦ !s.isRequested || d.first).map (·.reason)

/-- The shutdown has begun, or begins with a signal: no cycle is started any more, and the current
ones are stopped. -/
def beginStop (S : Setup) (watcher : Nat) (hasRelay : Bool) (s : State) : State :=
  let deaf := s.heardDeaf
  let s := if s.isRequested then s else (s.request s.unaskedCause).2
  let cause := s.ensemble.shutdown.cause
  let report := match cause with
    | some (.escalated _ _) => some s.unready
    | _ => none
  let left := s.currentCycles
  let s := s.close
  let grace := S.settings.grace
  if grace.isBeyondClocks then
    { s with host := .finished (.panicked deadlineOverflow) }.enter (.broke .host deadlineOverflow)
  else s.stopFrom S ⟨watcher, hasRelay, cause, report, deaf, []⟩ (s.now + grace.millisUp) false left

/-- The crash behind an escalation, if its resource is crashed in the end. -/
def crashBehind (S : Setup) (cause : Option Cause) (s : State) : Option Failure :=
  match cause with
  | some (.escalated resource _) =>
    ((S.place? resource).bind s.lifecycle?).bind fun c ↦
      if c.status = .crashed then c.lastFailure else none
  | _ => none

/-- How a run ends that did not end over an escalation. -/
def calmResult (S : Setup) (run : Shutting) : RunEnd :=
  if run.stuck.isEmpty then run.deaf.elim .ok fun reason ↦ .error (.signal reason)
  else .error (.graceExceeded S.settings.grace run.stuck)

/-- How a run ends. -/
def result (S : Setup) (run : Shutting) : RunEnd :=
  match run.cause, run.report with
  | some (.escalated resource reason), some failures =>
    .error (.escalated (resource ++ ": " ++ reason) failures)
  | _, _ => calmResult S run

/-- How the session of a run ends. -/
def sessionEnd (result : RunEnd) (crash : Option Failure) : SessionEnd :=
  match result, crash with
  | .error _, some detail => .error detail
  | .error e, none => .error (.plain e.label e.message)
  | .ok, _ | .panicked _, _ => .success

/-- Everything is stopped: the result is known, and the record store is told to stop. -/
def conclude (S : Setup) (run : Shutting) (s : State) : State :=
  let result := result S run
  let ending := sessionEnd result (s.crashBehind S run.cause)
  match s.recorder with
  | none => { s with host := .closing result none }
  | some r =>
    if r.finished then { s with host := .closing result none }
    else { s with recorder := some r.beginFinish, host := .closing result (some ending) }

/-- A run that ended well ends badly after all when its session could not be closed. -/
def withStoreError (result : RunEnd) (e : StoreError) : RunEnd :=
  match result with
  | .ok => .error (.store e)
  | _ => result

/-- Closes the session of the record store: what went wrong, if anything did, and the state after
it. -/
def closeSession (S : Setup) (ending : SessionEnd) (s : State) : Option StoreError × State :=
  match s.recorder with
  | none => (none, s)
  | some r =>
    let (closed, r) := r.closeSession ending (S.calendar s.now)
    let fault := match closed with
      | .ok () => none
      | .error e => some e
    (fault, { s with recorder := some r })

/-- The run is over. -/
def endRun (result : RunEnd) (s : State) : State :=
  { s with host := .finished result }.enter (.ended .host)

/-- Closes the session, if it is this run's to close, and ends the run. -/
def stepClosing (S : Setup) (result : RunEnd) (ending : Option SessionEnd) (s : State) : State :=
  match ending with
  | none => s.endRun result
  | some ending =>
    let (fault, s) := s.closeSession S ending
    s.endRun (fault.elim result (withStoreError result))

/-- Watcher `i` is over. -/
def watcherIsOver (s : State) (i : Nat) : Bool := s.watchers[i]?.all (·.isOver)

/-- The relay is over, or there is none. -/
def relayIsOver (s : State) : Bool := s.relay.all (·.stage = .finished)

/-- The writer of the record store is over, or there is none. -/
def writerIsOver (s : State) : Bool := s.recorder.all (·.writer.isOver)

/-- The host can go on now. -/
def hostIsEnabled (s : State) : Bool :=
  match s.host with
  | .absent | .finished _ => false
  | .fresh => true
  | .serving _ _ => s.isRequested || s.signalled
  | .stopping _ _ [] => true
  | .stopping _ deadline ((_, c) :: _) => s.cycleIsOver c || deadline ≤ s.now
  | .joiningWatcher run => s.watcherIsOver run.watcher
  | .joiningRelay _ => s.relayIsOver
  | .closing _ ending => ending.isNone || s.writerIsOver

/-- One step of the host. -/
def stepHost (S : Setup) (s : State) : State :=
  match s.host with
  | .absent | .finished _ => s
  | .fresh => s.beginRun S
  | .serving watcher hasRelay =>
    if s.isRequested || s.signalled then s.beginStop S watcher hasRelay else s
  | .stopping run deadline left => s.stopFrom S run deadline true left
  | .joiningWatcher run =>
    if s.watcherIsOver run.watcher then
      if run.hasRelay then
        { s with
          relay := s.relay.map fun r ↦ { r with stop := true }
          host := .joiningRelay run }
      else s.conclude S run
    else s
  | .joiningRelay run => if s.relayIsOver then s.conclude S run else s
  | .closing result ending =>
    if ending.isNone || s.writerIsOver then s.stepClosing S result ending else s

/-- The moment at which the host goes on by itself. -/
def hostTimer? (s : State) : Option Nat :=
  match s.host with
  | .stopping _ deadline (_ :: _) => some deadline
  | _ => none

/-- There is no run in progress. -/
def isIdle (s : State) : Bool :=
  match s.host with
  | .absent | .finished _ => true
  | _ => false

/-- A run is asked for. -/
def startRun (s : State) : State := { s with host := .fresh }.enter (.started .host)

/-- A run is given up by whoever asked for it; everything it started goes on. -/
def abandonRun (s : State) : State := { s with host := .absent }

end State

end Supervision
