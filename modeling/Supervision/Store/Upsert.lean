import Supervision.Store.Table

/-!
# Registering

Registering a key that is unknown adds a row under the next number; registering a known key
refreshes its row and keeps its number and the moment of its first registration. No family ever has
so many registrations that their numbers run out (`maxId`).
-/

namespace Supervision.Store

variable {α : Type}

/-- The row of a key. -/
def Shelf.find? (sh : Shelf α) (key : RegistrationKey) : Option (RegistrationRow α) :=
  sh.registrations.find? (·.key == key)

/-- Adds or refreshes the row of a key; its number. -/
def Shelf.upsert (key : RegistrationKey) (info : α) (now : Int) (sh : Shelf α) : Int × Shelf α :=
  match sh.find? key with
  | some row =>
    (row.id,
      { sh with
        registrations := sh.registrations.map fun r ↦
          if r.key == key then { r with info := info, lastRegisteredAt := now } else r })
  | none =>
    let id := nextId (sh.registrations.map (·.id))
    (id,
      { sh with
        registrations := sh.registrations ++
          [{ id := id, key := key, info := info, firstRegisteredAt := now
             lastRegisteredAt := now }] })

/-- Registers a listener. -/
def upsertListener (l : Registration ListenerInfo) (now : Stamp) (s : Store) : Int × Store :=
  let (id, sh) := s.listeners.upsert l.key (.ofInfo l.info) now.micros
  (id, { s with listeners := sh })

/-- Registers a job. -/
def upsertJob (j : Registration JobInfo) (now : Stamp) (s : Store) : Int × Store :=
  let (id, sh) := s.jobs.upsert j.key (.ofInfo j.info) now.micros
  (id, { s with jobs := sh })

end Supervision.Store
