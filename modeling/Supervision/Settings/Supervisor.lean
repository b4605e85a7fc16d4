import Supervision.Document.Decode
import Supervision.Policy

/-!
# Settings of a supervisor

How often and how fast failed resources are restarted, how long others wait for them, how long
stopping may take, and how many events the bus holds. Settings are read from a document; what it
leaves out keeps its standard value.

-/

namespace Supervision

/-- Settings of a supervisor. -/
structure Settings where
  /-- Restarts a resource may have before its failure ends the process. -/
  maxRestarts : Nat
  /-- Delays between restarts. -/
  backoff : Backoff
  /-- How long a resource waits for those it depends on. -/
  startupTimeout : Span
  /-- How long a running resource has to become ready for its count of restarts to begin anew. -/
  confirmTimeout : Span
  /-- How long stopping everything may take. -/
  grace : Span
  /-- Events the bus holds. -/
  busCapacity : Nat
deriving BEq, Inhabited

namespace Settings

open Document

/-- Five restarts, standard delays, half a minute for readiness, ten seconds to stop, room for 1024
events. -/
def standard : Settings where
  maxRestarts := 5
  backoff := .standard
  startupTimeout := .ofSecs 30
  confirmTimeout := .ofSecs 30
  grace := .ofSecs 10
  busCapacity := 1024

/-- The bus holds one event at least. -/
def busRoom (s : Settings) : Nat := max s.busCapacity 1

/-- Fields of growing delays. -/
def backoffSlots : List (Doc.Slot Backoff) :=
  [⟨"base", fun d b ↦ do return { b with base := ← d.span }⟩,
    ⟨"multiplier", fun d b ↦ do return { b with multiplier := ← d.float }⟩,
    ⟨"max", fun d b ↦ do return { b with max := ← d.span }⟩,
    ⟨"jitter", fun d b ↦ do
      return { b with jitter := ← d.choice (Jitter.all.map fun j ↦ (j.name, j)) }⟩]

/-- Fields of a supervisor's settings. -/
def slots : List (Doc.Slot Settings) :=
  [⟨"max_restart_attempts", fun d s ↦ do
      return { s with maxRestarts := ← d.natural UInt32.size "u32" }⟩,
    ⟨"backoff", fun d s ↦ do
      return { s with backoff := ← d.record "BackoffPolicy" backoffSlots .standard }⟩,
    ⟨"startup_timeout", fun d s ↦ do return { s with startupTimeout := ← d.span }⟩,
    ⟨"ready_confirm_timeout", fun d s ↦ do return { s with confirmTimeout := ← d.span }⟩,
    ⟨"grace", fun d s ↦ do return { s with grace := ← d.span }⟩,
    ⟨"bus_capacity", fun d s ↦ do
      return { s with busCapacity := ← d.natural UInt64.size "usize" }⟩]

/-- Settings out of a document. -/
def ofDoc (d : Doc) : Decoded Settings := d.record "SupervisorConfig" slots standard

/-- Settings out of the text of a document. -/
def ofText (text : String) : Decoded Settings := decodeText ofDoc text

end Settings

end Supervision
