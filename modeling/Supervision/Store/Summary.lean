import Supervision.Store.Session

/-!
# What the records say

For each registration a `Summary` of its records: how many there are of each status, how long they
took, and the latest one. Across all registrations, the latest failed records (`RecentError`).
-/

namespace Supervision

/-- What the records of one registration say. -/
structure Summary where
  target : Target
  key : RegistrationKey
  /-- Records in all. -/
  total : Nat
  successes : Nat
  errors : Nat
  cancelled : Nat
  /-- Mean duration in milliseconds; zero without records. -/
  averageMs : Float
  /-- Duration of the latest record. -/
  lastMs : Option Float
  /-- When the latest record began. -/
  lastRunAt : Option Stamp

/-- One failed record with its registration. -/
structure RecentError where
  target : Target
  key : RegistrationKey
  startedAt : Stamp
  errorType : Option String
  errorMessage : Option String
deriving DecidableEq

namespace Store

/-! ### Averages -/

/-- A running sum with the rounding errors it has lost so far. -/
structure RunningSum where
  sum : Float := 0.0
  lost : Float := 0.0

/-- Adds a number; what the sum rounds away is kept. -/
def RunningSum.add (a : RunningSum) (x : Float) : RunningSum :=
  let t := a.sum + x
  let err := if a.sum.abs > x.abs then (a.sum - t) + x else (x - t) + a.sum
  ⟨t, a.lost + err⟩

/-- The mean of numbers; zero of none. -/
def mean (xs : List Float) : Float :=
  if xs.isEmpty then 0.0
  else
    let a := xs.foldl RunningSum.add {}
    (if a.lost.isFinite then a.sum + a.lost else a.sum) / Float.ofNat xs.length

/-! ### Summaries -/

/-- A later record, or one of the same moment with a larger number. -/
def RecordRow.later (a b : RecordRow) : Bool :=
  decide (b.startedAt < a.startedAt) || (a.startedAt == b.startedAt && decide (b.id ≤ a.id))

/-- Records with a status. -/
def countStatus (st : RecordStatus) (rs : List RecordRow) : Nat :=
  rs.countP (·.status == st.name)

/-- Numbers of instances that are known: 32 bits without sign. -/
def instanceLimit : Int := UInt32.size

/-- The key as it is read back, its instance standing in the given column. -/
def decodeKey (column : Nat) (key : RegistrationKey) : Except StoreError RegistrationKey :=
  if 0 ≤ key.instanceIndex ∧ key.instanceIndex < instanceLimit then .ok key
  else .error (outOfRange column key.instanceIndex)

/-- The summary of a registration whose records are `rs`. -/
def summarize (target : Target) (key : RegistrationKey) (rs : List RecordRow) :
    Except StoreError Summary := do
  let latest := (rs.mergeSort RecordRow.later).head?
  let key ← decodeKey 2 key
  let lastRunAt ← moment? 11 (latest.map (·.startedAt))
  return {
    target := target
    key := key
    total := rs.length
    successes := countStatus .success rs
    errors := countStatus .error rs
    cancelled := countStatus .cancelled rs
    averageMs := mean ((rs.mergeSort fun a b ↦ b.later a).map (·.durationMs))
    lastMs := latest.map (·.durationMs)
    lastRunAt := lastRunAt }

variable {α : Type}

/-- The records of a registration. -/
def Shelf.recordsOf (sh : Shelf α) (id : Int) : List RecordRow :=
  sh.records.filter (·.registration == id)

/-- The registrations of an application, or all, in the order of their keys. -/
def Shelf.selected (sh : Shelf α) (app : Option String) : List (RegistrationRow α) :=
  (sh.registrations.filter fun g ↦ app.all (· == g.key.app)).mergeSort
    fun a b ↦ !b.key.before a.key

/-- A summary for each registration of an application, or of all. -/
def Shelf.summaries (family : Family) (app : Option String) (sh : Shelf α) :
    Except StoreError (List Summary) :=
  (sh.selected app).mapM fun g ↦ summarize ⟨family, g.id⟩ g.key (sh.recordsOf g.id)

/-- A summary for each listener. -/
def listenerSummaries (app : Option String) (s : Store) : Except StoreError (List Summary) :=
  s.listeners.summaries .listener app

/-- A summary for each job. -/
def jobSummaries (app : Option String) (s : Store) : Except StoreError (List Summary) :=
  s.jobs.summaries .job app

/-! ### Recent errors -/

/-- A failed record with the registration it belongs to. -/
structure Failed where
  target : Target
  key : RegistrationKey
  row : RecordRow

/-- The failed records of a family with their registrations. -/
def Shelf.failed (family : Family) (sh : Shelf α) : List Failed :=
  sh.records.filterMap fun r ↦
    if r.status == RecordStatus.error.name then
      (sh.registrations.find? (·.id == r.registration)).map fun g ↦ ⟨⟨family, g.id⟩, g.key, r⟩
    else none

/-- Later failures first; of one moment, the larger number. -/
def Failed.first (a b : Failed) : Bool := a.row.later b.row

/-- A failed record as it is read back. -/
def Failed.decode (f : Failed) : Except StoreError RecentError := do
  let key ← decodeKey 3 f.key
  let startedAt ← moment 6 f.row.startedAt
  return ⟨f.target, key, startedAt, f.row.errorType, f.row.errorMessage⟩

/-- All failed records, the latest first. -/
def failures (s : Store) : List Failed :=
  (s.listeners.failed .listener ++ s.jobs.failed .job).mergeSort Failed.first

/-- The latest failed records. -/
def recentErrors (limit : Nat) (s : Store) : Except StoreError (List RecentError) :=
  (s.failures.take limit).mapM (·.decode)

end Store

end Supervision
