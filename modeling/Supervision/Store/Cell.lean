import Supervision.Store.Table

/-!
# Rows as cells

The tables by name, each row as the list of its columns, and direct changes of single columns: what
an inspection of the stored data shows, and what a repair by hand can do to it.
-/

namespace Supervision.Store

/-- The value of one column of one row. -/
inductive Cell where
  | null
  | int (n : Int)
  | real (x : Float)
  | text (s : String)
deriving Inhabited

namespace Cell

/-- A text that may be missing. -/
def text? : Option String → Cell
  | some s => text s
  | none => null

/-- A whole number that may be missing. -/
def int? : Option Int → Cell
  | some n => int n
  | none => null

/-- A floating-point number that may be missing. -/
def real? : Option Float → Cell
  | some x => real x
  | none => null

/-- The text of a cell. -/
def asText : Cell → Option String
  | text s => some s
  | _ => none

/-- The whole number of a cell. -/
def asInt : Cell → Option Int
  | int n => some n
  | _ => none

/-- The floating-point number of a cell; whole numbers count. -/
def asReal : Cell → Option Float
  | real x => some x
  | int (.ofNat n) => some (Float.ofNat n)
  | int (.negSucc n) => some (-(Float.ofNat (n + 1)))
  | _ => none

/-- A column that may be empty. -/
def optional {α : Type} (get : Cell → Option α) : Cell → Option (Option α)
  | null => some none
  | c => (get c).map some

end Cell

/-- The tables of the store. -/
inductive TableName where
  | sessions
  | listeners
  | jobs
  | invocations
  | executions
deriving DecidableEq

/-- The name a table is stored under. -/
def TableName.name : TableName → String
  | .sessions => "sessions"
  | .listeners => "listeners"
  | .jobs => "scheduled_jobs"
  | .invocations => "handler_invocations"
  | .executions => "job_executions"

/-- The table of a name. -/
def TableName.ofName? (s : String) : Option TableName :=
  [TableName.sessions, .listeners, .jobs, .invocations, .executions].find? (·.name == s)

/-! ### Showing rows -/

/-- The columns of a session. -/
def SessionRow.cells (r : SessionRow) : List Cell :=
  [.int r.id, .int r.startedAt, .int? r.stoppedAt, .int r.lastHeartbeatAt, .text r.status,
    .text? r.errorType, .text? r.errorMessage, .text? r.errorTrace]

/-- The columns of a key. -/
def keyCells (k : RegistrationKey) : List Cell :=
  [.text k.app, .int k.instanceIndex, .text k.name, .text k.topic]

/-- The columns of a listener. -/
def listenerCells (r : RegistrationRow ListenerColumns) : List Cell :=
  [.int r.id] ++ keyCells r.key ++
    [.real? r.info.debounceMs, .real? r.info.throttleMs, .int r.info.once, .int r.info.priority,
      .text? r.info.predicate, .text? r.info.source, .int r.firstRegisteredAt,
      .int r.lastRegisteredAt]

/-- The columns of a job. -/
def jobCells (r : RegistrationRow JobColumns) : List Cell :=
  [.int r.id] ++ keyCells r.key ++
    [.text r.info.handler, .text r.info.trigger, .text? r.info.description, .int r.info.repeats,
      .text? r.info.source, .int r.firstRegisteredAt, .int r.lastRegisteredAt]

/-- The columns of a record. -/
def RecordRow.cells (r : RecordRow) : List Cell :=
  [.int r.id, .int r.registration, .int r.session, .int r.startedAt, .real r.durationMs,
    .text r.status, .text? r.errorType, .text? r.errorMessage, .text? r.errorTrace]

/-- Rows by their numbers. -/
def byId {ρ : Type} (id : ρ → Int) (cells : ρ → List Cell) (rows : List ρ) : List (List Cell) :=
  (rows.mergeSort fun a b ↦ id a ≤ id b).map cells

/-- All rows of a table, by their numbers. -/
def dump (t : TableName) (s : Store) : Except StoreError (List (List Cell)) :=
  match t with
  | .sessions =>
    if s.sessionsLost then .error noSessions else .ok (byId (·.id) (·.cells) s.sessions)
  | .listeners => .ok (byId (·.id) listenerCells s.listeners.registrations)
  | .jobs => .ok (byId (·.id) jobCells s.jobs.registrations)
  | .invocations => .ok (byId (·.id) (·.cells) s.listeners.records)
  | .executions => .ok (byId (·.id) (·.cells) s.jobs.records)

/-! ### Changing one column -/

/-- A session with one column changed. -/
def SessionRow.set (column : String) (c : Cell) (r : SessionRow) : Option SessionRow :=
  match column with
  | "id" => c.asInt.map fun v ↦ { r with id := v }
  | "started_at" => c.asInt.map fun v ↦ { r with startedAt := v }
  | "stopped_at" => (c.optional Cell.asInt).map fun v ↦ { r with stoppedAt := v }
  | "last_heartbeat_at" => c.asInt.map fun v ↦ { r with lastHeartbeatAt := v }
  | "status" => c.asText.map fun v ↦ { r with status := v }
  | "error_type" => (c.optional Cell.asText).map fun v ↦ { r with errorType := v }
  | "error_message" => (c.optional Cell.asText).map fun v ↦ { r with errorMessage := v }
  | "error_trace" => (c.optional Cell.asText).map fun v ↦ { r with errorTrace := v }
  | _ => none

/-- A registration with one of the columns changed that all families have. -/
def RegistrationRow.set {α : Type} (name column : String) (c : Cell) (r : RegistrationRow α) :
    Option (RegistrationRow α) :=
  match column with
  | "id" => c.asInt.map fun v ↦ { r with id := v }
  | "app_key" => c.asText.map fun v ↦ { r with key := { r.key with app := v } }
  | "instance_index" => c.asInt.map fun v ↦ { r with key := { r.key with instanceIndex := v } }
  | "topic" => c.asText.map fun v ↦ { r with key := { r.key with topic := v } }
  | "first_registered_at" => c.asInt.map fun v ↦ { r with firstRegisteredAt := v }
  | "last_registered_at" => c.asInt.map fun v ↦ { r with lastRegisteredAt := v }
  | _ =>
    if column == name then c.asText.map fun v ↦ { r with key := { r.key with name := v } } else none

/-- A listener with one column changed. -/
def setListener (column : String) (c : Cell) (r : RegistrationRow ListenerColumns) :
    Option (RegistrationRow ListenerColumns) :=
  match column with
  | "debounce_ms" =>
    (c.optional Cell.asReal).map fun v ↦ { r with info := { r.info with debounceMs := v } }
  | "throttle_ms" =>
    (c.optional Cell.asReal).map fun v ↦ { r with info := { r.info with throttleMs := v } }
  | "once" => c.asInt.map fun v ↦ { r with info := { r.info with once := v } }
  | "priority" => c.asInt.map fun v ↦ { r with info := { r.info with priority := v } }
  | "predicate" =>
    (c.optional Cell.asText).map fun v ↦ { r with info := { r.info with predicate := v } }
  | "source_location" =>
    (c.optional Cell.asText).map fun v ↦ { r with info := { r.info with source := v } }
  | _ => r.set "handler_name" column c

/-- A job with one column changed. -/
def setJob (column : String) (c : Cell) (r : RegistrationRow JobColumns) :
    Option (RegistrationRow JobColumns) :=
  match column with
  | "handler_name" => c.asText.map fun v ↦ { r with info := { r.info with handler := v } }
  | "trigger_type" => c.asText.map fun v ↦ { r with info := { r.info with trigger := v } }
  | "trigger_description" =>
    (c.optional Cell.asText).map fun v ↦ { r with info := { r.info with description := v } }
  | "repeats" => c.asInt.map fun v ↦ { r with info := { r.info with repeats := v } }
  | "source_location" =>
    (c.optional Cell.asText).map fun v ↦ { r with info := { r.info with source := v } }
  | _ => r.set "job_name" column c

/-- A record with one column changed; `parent` names the column of its registration. -/
def RecordRow.set (parent column : String) (c : Cell) (r : RecordRow) : Option RecordRow :=
  match column with
  | "id" => c.asInt.map fun v ↦ { r with id := v }
  | "session_id" => c.asInt.map fun v ↦ { r with session := v }
  | "started_at" => c.asInt.map fun v ↦ { r with startedAt := v }
  | "duration_ms" => c.asReal.map fun v ↦ { r with durationMs := v }
  | "status" => c.asText.map fun v ↦ { r with status := v }
  | "error_type" => (c.optional Cell.asText).map fun v ↦ { r with errorType := v }
  | "error_message" => (c.optional Cell.asText).map fun v ↦ { r with errorMessage := v }
  | "error_trace" => (c.optional Cell.asText).map fun v ↦ { r with errorTrace := v }
  | _ => if column == parent then c.asInt.map fun v ↦ { r with registration := v } else none

/-- Changes the row of a number; how many rows were changed. -/
def setRow {ρ : Type} (id : ρ → Int) (set : ρ → Option ρ) (n : Int) (rows : List ρ) :
    Nat × List ρ :=
  let changed (r : ρ) : Bool := id r == n && (set r).isSome
  (rows.countP changed, rows.map fun r ↦ if id r == n then (set r).getD r else r)

/-- Overwrites one column of one row; how many rows were changed. -/
def setColumn (t : TableName) (column : String) (id : Int) (c : Cell) (s : Store) : Nat × Store :=
  match t with
  | .sessions =>
    let (n, rows) := setRow (·.id) (·.set column c) id s.sessions
    (n, { s with sessions := rows })
  | .listeners =>
    let (n, rows) := setRow (·.id) (setListener column c) id s.listeners.registrations
    (n, { s with listeners := { s.listeners with registrations := rows } })
  | .jobs =>
    let (n, rows) := setRow (·.id) (setJob column c) id s.jobs.registrations
    (n, { s with jobs := { s.jobs with registrations := rows } })
  | .invocations =>
    let (n, rows) := setRow (·.id) (·.set "listener_id" column c) id s.listeners.records
    (n, { s with listeners := { s.listeners with records := rows } })
  | .executions =>
    let (n, rows) := setRow (·.id) (·.set "job_id" column c) id s.jobs.records
    (n, { s with jobs := { s.jobs with records := rows } })

end Supervision.Store
