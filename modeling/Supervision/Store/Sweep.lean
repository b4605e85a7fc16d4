import Supervision.Store.Table

/-!
# Sweeping the store

A sweep removes, in this order,

1. the records older than the horizon;
2. while more bytes are in use than allowed and a record is left, the `evictionBatch` oldest
   records of each family;
3. the registrations last seen before the horizon that have no records left.

Sessions are never swept, but records refer to them: when their table is gone, nothing is. The bytes
in use are a function of the store that the caller gives.
-/

namespace Supervision.Store

/-- What a sweep removed. -/
structure SweepReport where
  /-- Records older than the horizon. -/
  expired : Nat
  /-- Records that had to make room. -/
  evicted : Nat
  /-- Registrations without records. -/
  registrations : Nat
deriving DecidableEq, Inhabited

/-- The sweep removed nothing. -/
def SweepReport.isEmpty (r : SweepReport) : Bool :=
  r.expired == 0 && r.evicted == 0 && r.registrations == 0

/-- Records of a family that one round of eviction removes at most. -/
def evictionBatch : Nat := 500

/-- The age limit in microseconds: `retention` before `now`, or the start of 1970 where that moment
does not exist. -/
def horizon (now : Stamp) (retention : Span) : Int :=
  match now.before? retention with
  | some t => t.micros
  | none => 0

/-- Records with a smaller age come later; the number decides between records of one moment. -/
def RecordRow.older (a b : RecordRow) : Bool :=
  decide (a.startedAt < b.startedAt) || (a.startedAt == b.startedAt && decide (a.id ≤ b.id))

/-- The numbers of the oldest records, at most `n`. -/
def oldest (n : Nat) (rs : List RecordRow) : List Int :=
  ((rs.mergeSort RecordRow.older).take n).map (·.id)

/-- All records of both families. -/
def recordCount (s : Store) : Nat := s.listeners.records.length + s.jobs.records.length

variable {α : Type}

/-- Without the records that began before `h`. -/
def Shelf.expire (h : Int) (sh : Shelf α) : Shelf α :=
  { sh with records := sh.records.filter fun r ↦ !decide (r.startedAt < h) }

/-- Without the oldest records, at most `evictionBatch`. -/
def Shelf.evict (sh : Shelf α) : Shelf α :=
  let gone := oldest evictionBatch sh.records
  { sh with records := sh.records.filter fun r ↦ !gone.contains r.id }

/-- Without the registrations last seen before `h` that have no records. -/
def Shelf.prune (h : Int) (sh : Shelf α) : Shelf α :=
  { sh with
    registrations := sh.registrations.filter fun g ↦
      !(decide (g.lastRegisteredAt < h) && !sh.records.any (·.registration == g.id)) }

/-- Without the records that began before `h`. -/
def expire (h : Int) (s : Store) : Store :=
  { s with listeners := s.listeners.expire h, jobs := s.jobs.expire h }

/-- Without the oldest records of each family, at most `evictionBatch` of each. -/
def evict (s : Store) : Store :=
  { s with listeners := s.listeners.evict, jobs := s.jobs.evict }

/-- Without the registrations last seen before `h` that have no records. -/
def prune (h : Int) (s : Store) : Store :=
  { s with listeners := s.listeners.prune h, jobs := s.jobs.prune h }

/-- All registrations of both families. -/
def registrationCount (s : Store) : Nat :=
  s.listeners.registrations.length + s.jobs.registrations.length

/-- Evicts until at most `limit` bytes are in use or a round removes nothing. -/
def makeRoom (used : Store → Nat) (limit : Nat) (s : Store) : Store :=
  if limit < used s then
    if s.evict.recordCount < s.recordCount then makeRoom used limit s.evict else s
  else s
termination_by s.recordCount

/-- One pass over the store. -/
def sweep (used : Store → Nat) (now : Stamp) (retention : Span) (limit : Nat) (s : Store) :
    Result SweepReport :=
  s.withSessions noReferences fun s ↦
    let h := horizon now retention
    let s₁ := s.expire h
    let s₂ := s₁.makeRoom used limit
    let s₃ := s₂.prune h
    (.ok
      { expired := s.recordCount - s₁.recordCount
        evicted := s₁.recordCount - s₂.recordCount
        registrations := s₂.registrationCount - s₃.registrationCount }, s₃)

/-- An estimate of the bytes in use: the pages of an empty store and one page for every forty
rows. -/
def footprint (s : Store) : Nat :=
  4096 * (16 + (s.sessions.length + s.recordCount + s.registrationCount) / 40)

end Supervision.Store
