import Supervision.Execution.Outcome
import Supervision.LogLine

/-!
# The queue in front of the store

What is to be stored waits in a bounded queue. An offer never waits: with no room, or after the
queue was closed, the write is lost and counted. The first, second, fourth, … loss for want of room
is logged. Who wants to know when everything so far is through puts a sign into the queue; a sign
waits for room and is never counted. A place that becomes free while a sign waits is kept for it,
and is no room for anybody else.

* `offer_accepted` — an accepted write stands at the end of the queue and costs nothing.
* `offer_refused` — a write that is refused though there is a store is counted, and changes the
  queue in nothing.
-/

namespace Supervision

/-- What is to be stored. -/
inductive Write where
  /-- A record of work. -/
  | record (r : Record)
  /-- A failure to keep with a session. -/
  | sessionError (session : Int) (detail : Failure)
deriving DecidableEq

/-- What waits in the queue. -/
inductive WriteOp where
  /-- Something to store. -/
  | write (w : Write)
  /-- A sign, by its number, that everything before it is through. -/
  | sign (ticket : Nat)
deriving DecidableEq

/-- The queue in front of the store. -/
structure Sink where
  /-- How much it holds. -/
  room : Nat
  /-- What waits, oldest first. -/
  queue : List WriteOp := []
  /-- Free places that are kept for signs. -/
  kept : Nat := 0
  /-- There is a store behind it. -/
  enabled : Bool := true
  /-- Takes nothing any more. -/
  closed : Bool := false
  /-- How many writes were lost. -/
  dropped : Nat := 0
deriving DecidableEq, Inhabited

namespace Sink

/-- An empty queue; it holds one write at least. -/
def ofCapacity (capacity : Nat) : Sink := { room := max capacity 1 }

/-- A queue with no store behind it: it takes nothing and counts nothing. -/
def disabled : Sink := { room := 1, enabled := false }

/-- One of the numbers one, two, four, and so on. -/
def isMilestone (n : Nat) : Bool := n ≠ 0 && n &&& (n - 1) = 0

/-- The log line of a loss for want of room. -/
def lossLine (count : Nat) : LogLine :=
  ⟨.warn, "telemetry queue full; dropping writes", [("dropped", toString count)]⟩

/-- A place is free and kept for nobody. -/
def hasRoom (s : Sink) : Bool := decide (s.queue.length + s.kept < s.room)

/-- Offers a write: whether it was taken, what is logged, and the queue after it. -/
def offer (w : Write) (s : Sink) : Bool × List LogLine × Sink :=
  if !s.enabled then (false, [], s)
  else if s.closed then (false, [], { s with dropped := s.dropped + 1 })
  else if s.hasRoom then (true, [], { s with queue := s.queue ++ [.write w] })
  else
    let count := s.dropped + 1
    (false, if isMilestone count then [lossLine count] else [], { s with dropped := count })

/-- A sign can be put into the queue now. -/
def takesSign (s : Sink) : Bool := s.enabled && !s.closed && s.hasRoom

/-- Puts a sign into the queue, if that can be done now. -/
def putSign (ticket : Nat) (s : Sink) : Sink :=
  if s.takesSign then { s with queue := s.queue ++ [.sign ticket] } else s

/-- Keeps a place for a sign that waits, if one is free. -/
def keep (s : Sink) : Sink := if s.takesSign then { s with kept := s.kept + 1 } else s

/-- A place is kept for a sign, and the sign may still go there. -/
def takesKept (s : Sink) : Bool := s.enabled && !s.closed && decide (0 < s.kept)

/-- Puts a sign into the place that is kept for it. -/
def putKept (ticket : Nat) (s : Sink) : Sink :=
  if s.takesKept then { s with queue := s.queue ++ [.sign ticket], kept := s.kept - 1 } else s

/-- A sign no longer waits for the place that is kept for it. -/
def giveBack (s : Sink) : Sink := { s with kept := s.kept - 1 }

/-- Takes nothing any more; what waits is still there. -/
def close (s : Sink) : Sink := { s with closed := true }

/-- Takes nothing any more and forgets what waits. -/
def abandon (s : Sink) : Sink := { s with closed := true, queue := [] }

/-- Takes everything out. -/
def drain (s : Sink) : List WriteOp × Sink := (s.queue, { s with queue := [] })

theorem offer_accepted {w : Write} {s : Sink} (h : (s.offer w).1 = true) :
    (s.offer w).2.2 = { s with queue := s.queue ++ [.write w] } := by
  unfold offer at h ⊢
  cases he : s.enabled <;> cases hc : s.closed <;> cases hl : s.hasRoom <;> simp_all

theorem offer_refused {w : Write} {s : Sink} (he : s.enabled = true)
    (h : (s.offer w).1 = false) : (s.offer w).2.2 = { s with dropped := s.dropped + 1 } := by
  unfold offer at h ⊢
  by_cases hc : s.closed = true
  · simp [he, hc]
  · by_cases hl : s.hasRoom = true
    · simp [he, hc, hl] at h
    · simp [he, hc, hl]

end Sink

end Supervision
