import Supervision.Event

/-!
# The event bus

Everything published goes onto one record, oldest first. A receiver is a place in that record: the
number of the event it takes next. The bus promises to hold only its newest events; a receiver that
fell further behind is told how many it missed, and goes on with the oldest event still held.

* `receive_next` — every receipt moves a receiver forward, and never ahead of the record.
* `receive_eq_nothing_iff` — a receiver waits exactly at the end of the record.
-/

namespace Supervision

/-- Events published on one bus. -/
structure Bus where
  /-- How many of the newest events are held. -/
  room : Nat
  /-- Everything published, oldest first. -/
  sent : Array Event := #[]
deriving Inhabited

/-- What a receiver gets. -/
inductive Received where
  /-- Nothing is left. -/
  | nothing
  /-- So many events were missed; the receiver goes on at `next`. -/
  | missed (count next : Nat)
  /-- The next event. -/
  | event (e : Event) (next : Nat)
deriving DecidableEq

/-- Why no bus of a size can be made. -/
inductive Bus.Oversized where
  /-- More than half of all 64-bit counts; the channel panics. -/
  | beyondCounts
  /-- More than memory can address; the ring of the channel panics. -/
  | beyondAddresses
  /-- More than there is memory for; the process ends. -/
  | beyondMemory
deriving DecidableEq

/-- What is said of a size for which no bus can be made, without the count of bytes where it is
memory that is short. -/
def Bus.Oversized.message : Bus.Oversized → String
  | .beyondCounts => "broadcast channel capacity exceeded \x60usize::MAX / 2\x60"
  | .beyondAddresses => "capacity overflow"
  | .beyondMemory => "memory allocation failed"

/-- Where the receiver goes on, when it got something. -/
def Received.next? : Received → Option Nat
  | .nothing => none
  | .missed _ next | .event _ next => some next

namespace Bus

/-- The least power of two from `n` on; one for zero. -/
def roundUp (n : Nat) : Nat := if n ≤ 1 then 1 else 1 <<< ((n - 1).log2 + 1)

/-- An empty bus for `capacity` events, rounded up to a power of two. -/
def ofCapacity (capacity : Nat) : Bus := { room := roundUp capacity }

/-- How many events can be addressed. -/
def addressable : Nat := 1 <<< 55

/-- An empty bus, if one of that size can be made where there is memory for so many events. -/
def ofCapacity? (capacity : Nat) (memory : Nat := addressable) : Except Oversized Bus :=
  if UInt64.size / 2 ≤ capacity then .error .beyondCounts
  else if addressable < roundUp capacity then .error .beyondAddresses
  else if memory < roundUp capacity then .error .beyondMemory
  else .ok (ofCapacity capacity)

/-- How many events were published. -/
def size (b : Bus) : Nat := b.sent.size

/-- Publishes an event. -/
def publish (e : Event) (b : Bus) : Bus := { b with sent := b.sent.push e }

/-- What a receiver at `next` gets. -/
def receive (b : Bus) (next : Nat) : Received :=
  if next + b.room < b.size then .missed (b.size - b.room - next) (b.size - b.room)
  else
    match b.sent[next]? with
    | some e => .event e (next + 1)
    | none => .nothing

@[simp] theorem size_publish (e : Event) (b : Bus) : (b.publish e).size = b.size + 1 := by
  simp [publish, size]

@[simp] theorem room_publish (e : Event) (b : Bus) : (b.publish e).room = b.room := rfl

theorem le_roundUp (n : Nat) : n ≤ roundUp n := by
  unfold roundUp
  split
  · assumption
  · have := Nat.lt_log2_self (n := n - 1)
    rw [Nat.one_shiftLeft]
    omega

/-- A bus is refused by count exactly from half of all counts on, whatever memory there is. -/
theorem ofCapacity?_eq_beyondCounts_iff {capacity memory : Nat} :
    ofCapacity? capacity memory = .error .beyondCounts ↔ UInt64.size / 2 ≤ capacity := by
  unfold ofCapacity?
  split
  · exact ⟨fun _ ↦ ‹_›, fun _ ↦ rfl⟩
  · refine iff_of_false ?_ ‹_›
    split
    · nofun
    · split <;> nofun

/-- Otherwise it can be made as far as its ring can be addressed and there is memory for it. -/
theorem exists_ofCapacity?_eq_ok_iff {capacity memory : Nat} :
    (∃ bus, ofCapacity? capacity memory = .ok bus) ↔
      roundUp capacity ≤ min memory addressable := by
  have counts : addressable < UInt64.size / 2 := by decide
  have le := le_roundUp capacity
  rw [Nat.le_min]
  unfold ofCapacity?
  split
  · exact iff_of_false nofun (by omega)
  · split
    · exact iff_of_false nofun (by omega)
    · split
      · exact iff_of_false nofun (by omega)
      · exact iff_of_true ⟨_, rfl⟩ (by omega)

/-- A receipt moves the receiver forward, and never ahead of the record. -/
theorem receive_next {b : Bus} {next n : Nat} (h : (b.receive next).next? = some n) :
    next < n ∧ n ≤ b.size := by
  unfold receive at h
  split at h
  · simp only [Received.next?, Option.some.injEq] at h
    omega
  · split at h
    · rename_i e he
      obtain ⟨hlt, -⟩ := Array.getElem?_eq_some_iff.1 he
      simp only [Received.next?, Option.some.injEq] at h
      simp only [size]
      omega
    · simp [Received.next?] at h

/-- Nothing is left exactly for a receiver at the end of the record. -/
theorem receive_eq_nothing_iff {b : Bus} {next : Nat} :
    b.receive next = .nothing ↔ b.size ≤ next := by
  unfold receive
  split
  · simp only [reduceCtorEq, false_iff]
    omega
  · split
    · rename_i e he
      obtain ⟨hlt, -⟩ := Array.getElem?_eq_some_iff.1 he
      simp only [reduceCtorEq, false_iff, size]
      omega
    · rename_i he
      simpa [size] using he

/-- The event that is received is the one the receiver stands at. -/
theorem receive_eq_event {b : Bus} {next n : Nat} {e : Event}
    (h : b.receive next = .event e n) : b.sent[next]? = some e ∧ n = next + 1 := by
  unfold receive at h
  split at h
  · cases h
  · split at h
    · cases h
      exact ⟨‹_›, rfl⟩
    · cases h

end Bus

end Supervision
