import Supervision.Fault
import Supervision.Store.Registration

/-!
# The tables of the store

Five tables: sessions, and for each family of registrations the registrations and their records.
Rows keep what is stored: moments in microseconds, lengths of time in milliseconds, statuses by
name. A `Store` is the value of all tables.

* New rows take the largest number present plus one (`nextId`), sessions the largest ever given
  plus one, so a session's number is never given twice.
* The number of a row has 63 bits. A record that follows one with the largest number gets a number
  that is drawn among those that nobody has (`Lot`). Registrations are taken never to get that far.
-/

namespace Supervision

/-- Where a session stands. -/
inductive SessionStatus where
  | running
  | success
  | error
  /-- The process ended without closing it. -/
  | unknown
deriving DecidableEq, Inhabited

namespace SessionStatus

/-- The name of a status, as it is stored. -/
def name : SessionStatus → String
  | running => "running"
  | success => "success"
  | error => "error"
  | unknown => "unknown"

/-- Every status. -/
def all : List SessionStatus := [running, success, error, unknown]

/-- The status of a stored name. -/
def ofName? (s : String) : Option SessionStatus := all.find? (·.name == s)

end SessionStatus

namespace Store

/-- A row of the sessions. -/
structure SessionRow where
  id : Int
  startedAt : Int
  stoppedAt : Option Int
  lastHeartbeatAt : Int
  status : String
  errorType : Option String
  errorMessage : Option String
  errorTrace : Option String
deriving DecidableEq, Inhabited

/-- A row of the registrations of a family. -/
structure RegistrationRow (α : Type) where
  id : Int
  key : RegistrationKey
  info : α
  firstRegisteredAt : Int
  lastRegisteredAt : Int
deriving Inhabited

/-- What is stored about a listener. -/
structure ListenerColumns where
  debounceMs : Option Float
  throttleMs : Option Float
  once : Int
  priority : Int
  predicate : Option String
  source : Option String
deriving Inhabited

/-- What is stored about a job. -/
structure JobColumns where
  handler : String
  trigger : String
  description : Option String
  repeats : Int
  source : Option String
deriving DecidableEq, Inhabited

/-- A row of the records of a family. -/
structure RecordRow where
  id : Int
  /-- Number of the registration. -/
  registration : Int
  /-- Number of the session. -/
  session : Int
  startedAt : Int
  durationMs : Float
  status : String
  errorType : Option String
  errorMessage : Option String
  errorTrace : Option String
deriving Inhabited

/-- The two tables of a family: registrations and their records. -/
structure Shelf (α : Type) where
  registrations : List (RegistrationRow α) := []
  records : List RecordRow := []
deriving Inhabited

/-! ### Numbers of rows -/

/-- The next number of a table: the largest one present plus one. -/
def nextId (ids : List Int) : Int :=
  match ids.max? with
  | some m => m + 1
  | none => 1

/-- Largest number a row may have: that of a 64-bit word with a sign. -/
def maxId : Int := 9223372036854775807

/-- Largest number that is drawn. -/
def maxDrawn : Int := 4611686018427387904

/-- The first number from `n` on that nobody has. -/
def firstFree (n : Int) (ids : List Int) : Int :=
  if n ∈ ids then firstFree (n + 1) (ids.erase n) else n
termination_by ids.length
decreasing_by
  rename_i taken
  have some := List.length_pos_of_mem taken
  rw [List.length_erase_of_mem taken]
  omega

theorem le_firstFree (n : Int) (ids : List Int) : n ≤ firstFree n ids := by
  fun_induction firstFree n ids with
  | case1 n ids taken ih => omega
  | case2 n ids free => exact Int.le_refl n

theorem firstFree_notMem (n : Int) (ids : List Int) : firstFree n ids ∉ ids := by
  fun_induction firstFree n ids with
  | case1 n ids taken ih =>
    have later := le_firstFree (n + 1) (ids.erase n)
    exact fun mem ↦ ih ((List.mem_erase_of_ne (by omega)).mpr mem)
  | case2 n ids free => exact free

theorem firstFree_le (n : Int) (ids : List Int) : firstFree n ids ≤ n + ids.length := by
  fun_induction firstFree n ids with
  | case1 n ids taken ih =>
    have some := List.length_pos_of_mem taken
    rw [List.length_erase_of_mem taken] at ih
    omega
  | case2 n ids free => omega

/-- How numbers are drawn when the largest one is given away. A draw that hits a number which
somebody has is repeated; if that happens too often the engine gives up, which is one of the faults
that it may have. -/
structure Lot where
  /-- What is drawn when these numbers are given away. -/
  pick : List Int → Int
  fresh : ∀ ids, pick ids ∉ ids
  inRange : ∀ ids : List Int, (ids.length : Int) < maxDrawn → 0 < pick ids ∧ pick ids ≤ maxDrawn

/-- The lot always falls on the least number that nobody has. -/
def Lot.least : Lot where
  pick := firstFree 1
  fresh := firstFree_notMem 1
  inRange ids few := by
    have least := le_firstFree 1 ids
    have most := firstFree_le 1 ids
    exact ⟨by omega, by omega⟩

instance : Inhabited Lot := ⟨.least⟩

/-- The number of the next record: the next one of the table as long as there is one, and then what
is drawn. -/
def Lot.next (lot : Lot) (ids : List Int) : Int :=
  if nextId ids ≤ maxId then nextId ids else lot.pick ids

end Store

/-- All tables. -/
structure Store where
  sessions : List Store.SessionRow := []
  /-- Largest number ever given to a session. -/
  sessionsGiven : Int := 0
  /-- The table of sessions is gone; whatever needs it fails. -/
  sessionsLost : Bool := false
  listeners : Store.Shelf Store.ListenerColumns := {}
  jobs : Store.Shelf Store.JobColumns := {}
  /-- How the engine draws numbers for records. -/
  lot : Store.Lot := .least
deriving Inhabited

namespace Store

/-- A truth value as it is stored. -/
def flag (b : Bool) : Int := if b then 1 else 0

/-- What is stored about a listener. -/
def ListenerColumns.ofInfo (l : ListenerInfo) : ListenerColumns where
  debounceMs := l.debounce.map (·.toMillis)
  throttleMs := l.throttle.map (·.toMillis)
  once := flag l.once
  priority := l.priority
  predicate := l.predicate
  source := l.source

/-- What is stored about a job. -/
def JobColumns.ofInfo (j : JobInfo) : JobColumns where
  handler := j.handler
  trigger := j.trigger
  description := j.description
  repeats := flag j.repeats
  source := j.source

/-- The stored form of a record under a number. -/
def RecordRow.ofRecord (id : Int) (r : Record) : RecordRow where
  id := id
  registration := r.target.id
  session := r.session
  startedAt := r.startedAt.micros
  durationMs := r.duration.toMillis
  status := r.status.name
  errorType := r.errorType
  errorMessage := r.errorMessage
  errorTrace := r.errorTrace

/-- The records of a family. -/
def records (s : Store) : Family → List RecordRow
  | .listener => s.listeners.records
  | .job => s.jobs.records

/-- The numbers of a family's registrations. -/
def registrationIds (s : Store) : Family → List Int
  | .listener => s.listeners.registrations.map (·.id)
  | .job => s.jobs.registrations.map (·.id)

/-- What fails when the table of sessions is gone and a statement names it. -/
def noSessions : StoreError := .engine "no such table: sessions"

/-- What fails when the table of sessions is gone and rows are added or removed that refer to it:
the engine then looks for it itself, and names the schema as well. -/
def noReferences : StoreError := .engine "no such table: main.sessions"

/-- The result of an operation: what it gives or why it fails, and the store after it. -/
abbrev Result (α : Type) := Except StoreError α × Store

/-- An operation that needs the table of sessions; what it says if that is gone. -/
def withSessions {α : Type} (s : Store) (gone : StoreError) (op : Store → Result α) : Result α :=
  if s.sessionsLost then (.error gone, s) else op s

/-- All or nothing: a step that fails leaves the store as it was. -/
def transaction {α : Type} (s : Store) (body : Store → Result α) : Result α :=
  match body s with
  | (.ok a, s') => (.ok a, s')
  | (.error e, _) => (.error e, s)

end Store

end Supervision
