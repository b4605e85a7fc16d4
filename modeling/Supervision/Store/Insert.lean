import Supervision.Store.Table

/-!
# Adding records

Records are added in one transaction. A record whose registration or session is unknown is left out
and the rest is kept; any other fault leaves the store as it was.

* `accepts` — what makes a record one that is kept.
-/

namespace Supervision.Store

/-- The record's registration exists in the table of its own family, and its session exists. -/
def accepts (s : Store) (r : Record) : Bool :=
  (s.registrationIds r.target.family).contains r.target.id &&
    (s.sessions.map (·.id)).contains r.session

/-- The shelf with one more record. -/
def Shelf.append {α : Type} (lot : Lot) (r : Record) (sh : Shelf α) : Shelf α :=
  { sh with records := sh.records ++ [.ofRecord (lot.next (sh.records.map (·.id))) r] }

/-- The store with one more record. -/
def append (r : Record) (s : Store) : Store :=
  match r.target.family with
  | .listener => { s with listeners := s.listeners.append s.lot r }
  | .job => { s with jobs := s.jobs.append s.lot r }

/-- Faults that befall a transaction, apart from unknown registrations and sessions. -/
structure Faults where
  /-- The fault at the record with this position in the batch; that no free number could be drawn
  is one of them. -/
  atRecord : Nat → Option StoreError := fun _ ↦ none
  /-- The fault when the transaction ends. -/
  atCommit : Option StoreError := none

/-- Adds the records from position `i` on; how many were added, on top of `written`. -/
def insertFrom (faults : Faults) (i written : Nat) (s : Store) : List Record → Result Nat
  | [] =>
    match faults.atCommit with
    | some e => (.error e, s)
    | none => (.ok written, s)
  | r :: rs =>
    match faults.atRecord i with
    | some e => (.error e, s)
    | none =>
      if s.accepts r then insertFrom faults (i + 1) (written + 1) (s.append r) rs
      else insertFrom faults (i + 1) written s rs

/-- Adds records in one transaction under the given faults; how many were added. -/
def insertRecordsWith (faults : Faults) (rs : List Record) (s : Store) : Result Nat :=
  if rs.isEmpty then (.ok 0, s)
  else s.withSessions noReferences fun s ↦ s.transaction fun s ↦ insertFrom faults 0 0 s rs

/-- Adds records in one transaction; how many were added. -/
def insertRecords (rs : List Record) (s : Store) : Result Nat := insertRecordsWith {} rs s

end Supervision.Store
