import Supervision.Store.Table

/-!
# Sessions in the store

A session is one life of a process. It begins `running`, shows signs of life, and is closed once.
Its first error stays. Sessions that a process left open are closed as `unknown` at their last sign
of life.
-/

namespace Supervision

/-- A session as it is read back. -/
structure Session where
  id : Int
  startedAt : Stamp
  stoppedAt : Option Stamp
  lastHeartbeatAt : Stamp
  status : SessionStatus
  errorType : Option String
  errorMessage : Option String
  errorTrace : Option String
deriving DecidableEq

namespace Store

/-! ### Changes -/

/-- The session is running. -/
def SessionRow.isRunning (r : SessionRow) : Bool := r.status == SessionStatus.running.name

/-- Changes the sessions that satisfy `p`; how many those are. -/
def updateSessions (p : SessionRow → Bool) (f : SessionRow → SessionRow) (s : Store) :
    Result Nat :=
  s.withSessions noSessions fun s ↦
    (.ok (s.sessions.countP p),
      { s with sessions := s.sessions.map fun r ↦ if p r then f r else r })

/-- The number of the next session. -/
def nextSession (s : Store) : Int := max (nextId (s.sessions.map (·.id))) (s.sessionsGiven + 1)

/-- Opens a session. -/
def beginSession (now : Stamp) (s : Store) : Result Int :=
  s.withSessions noSessions fun s ↦
    let id := s.nextSession
    if maxId < id then (.error (.engine "database or disk is full"), s)
    else
      let row : SessionRow :=
        { id := id, startedAt := now.micros, stoppedAt := none, lastHeartbeatAt := now.micros
          status := SessionStatus.running.name, errorType := none, errorMessage := none
          errorTrace := none }
      (.ok id, { s with sessions := s.sessions ++ [row], sessionsGiven := id })

/-- Whether any row was changed. -/
def anyChanged (r : Result Nat) : Result Bool := (r.1.map (decide <| 0 < ·), r.2)

/-- A sign of life of a running session. -/
def heartbeat (id : Int) (now : Stamp) (s : Store) : Result Bool :=
  anyChanged <| s.updateSessions (fun r ↦ r.id == id && r.isRunning)
    fun r ↦ { r with lastHeartbeatAt := now.micros }

/-- The session with its first error. -/
def SessionRow.noteError (f : Failure) (r : SessionRow) : SessionRow :=
  { r with errorType := some f.kind, errorMessage := some f.message, errorTrace := f.trace }

/-- The session with an error, unless it has one. -/
def SessionRow.keepError (f? : Option Failure) (r : SessionRow) : SessionRow :=
  if r.errorType.isSome then r
  else
    { r with
      errorType := f?.map (·.kind)
      errorMessage := f?.map (·.message)
      errorTrace := f?.bind (·.trace) }

/-- Closes a running session. -/
def finishSession (id : Int) (status : SessionStatus) (failure : Option Failure) (now : Stamp)
    (s : Store) : Result Bool :=
  anyChanged <| s.updateSessions (fun r ↦ r.id == id && r.isRunning)
    fun r ↦
      { r.keepError failure with
        status := status.name
        stoppedAt := some now.micros
        lastHeartbeatAt := now.micros }

/-- Notes the first error of a session. -/
def recordSessionError (id : Int) (f : Failure) (s : Store) : Result Bool :=
  anyChanged <| s.updateSessions (fun r ↦ r.id == id && r.errorType.isNone) (·.noteError f)

/-- Closes every running session at its last sign of life; their numbers, ascending. -/
def finalizeOrphans (s : Store) : Result (List Int) :=
  let ids := ((s.sessions.filter (·.isRunning)).map (·.id)).mergeSort (· ≤ ·)
  let (r, s') := s.updateSessions (·.isRunning)
    fun r ↦
      { r with status := SessionStatus.unknown.name, stoppedAt := some r.lastHeartbeatAt }
  (r.map fun _ ↦ ids, s')

/-! ### Queries -/

/-- What the engine reports of a stored number that is out of range. -/
def outOfRange (column : Nat) (v : Int) : StoreError :=
  .engine ("Integer " ++ toString v ++ " out of range at index " ++ toString column)

/-- The moment stored in a column. -/
def moment (column : Nat) (us : Int) : Except StoreError Stamp :=
  if Stamp.isMicros us then .ok (.ofMicros us) else .error (outOfRange column us)

/-- The moment stored in a column that may be empty. -/
def moment? (column : Nat) : Option Int → Except StoreError (Option Stamp)
  | none => .ok none
  | some us => (moment column us).map some

/-- What the engine reports of a session whose status has no meaning. -/
def badStatus (status : String) : StoreError :=
  .engine ("Conversion error from type Text at index: 4, "
    ++ (StoreError.undecodable "sessions.status" status).message)

/-- A session as it is read back. The status is read first, then the columns in order. -/
def SessionRow.decode (r : SessionRow) : Except StoreError Session := do
  let status ← match SessionStatus.ofName? r.status with
    | some st => pure st
    | none => throw (badStatus r.status)
  let startedAt ← moment 1 r.startedAt
  let stoppedAt ← moment? 2 r.stoppedAt
  let lastHeartbeatAt ← moment 3 r.lastHeartbeatAt
  return { r with startedAt, stoppedAt, lastHeartbeatAt, status }

/-- One session. -/
def session? (id : Int) (s : Store) : Except StoreError (Option Session) :=
  if s.sessionsLost then .error noSessions
  else
    match s.sessions.find? (·.id == id) with
    | some r => r.decode.map some
    | none => .ok none

/-- The latest sessions. -/
def recentSessions (limit : Nat) (s : Store) : Except StoreError (List Session) :=
  if s.sessionsLost then .error noSessions
  else ((s.sessions.mergeSort (fun a b ↦ b.id ≤ a.id)).take limit).mapM (·.decode)

end Store

end Supervision
