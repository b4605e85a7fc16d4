import Supervision.Document.Decode

/-!
# Settings of the record store

Where records are kept and for how long, how large the store may grow, how often it is swept, how
often a session shows that it is alive, and how writes are queued.
-/

namespace Supervision

/-- Settings of the record store. -/
structure RecordSettings where
  /-- File of the store. -/
  path : String
  /-- Age at which records are removed. -/
  retention : Span
  /-- Bytes in use beyond which the oldest records go. -/
  maxBytes : Nat
  /-- Time between sweeps. -/
  sweepInterval : Span
  /-- Time between signs of life. -/
  heartbeatInterval : Span
  /-- Writes the queue holds. -/
  queueCapacity : Nat
  /-- Writes that go into one transaction. -/
  batchSize : Nat
deriving BEq, Inhabited

namespace RecordSettings

open Document

/-- A week of records in at most 500 MiB, swept every hour, a sign of life every half minute, ten
thousand queued writes, a hundred to a transaction. -/
def standard : RecordSettings where
  path := "servwatch.db"
  retention := .ofSecs (7 * 24 * 3600)
  maxBytes := 500 * 1024 * 1024
  sweepInterval := .ofSecs 3600
  heartbeatInterval := .ofSecs 30
  queueCapacity := 10000
  batchSize := 100

/-- Fields of the settings. -/
def slots : List (Doc.Slot RecordSettings) :=
  [⟨"path", fun d s ↦ do return { s with path := ← d.string "path string" }⟩,
    ⟨"retention", fun d s ↦ do return { s with retention := ← d.span }⟩,
    ⟨"max_db_bytes", fun d s ↦ do return { s with maxBytes := ← d.natural UInt64.size "u64" }⟩,
    ⟨"sweep_interval", fun d s ↦ do return { s with sweepInterval := ← d.span }⟩,
    ⟨"heartbeat_interval", fun d s ↦ do return { s with heartbeatInterval := ← d.span }⟩,
    ⟨"queue_capacity", fun d s ↦ do
      return { s with queueCapacity := ← d.natural UInt64.size "usize" }⟩,
    ⟨"batch_size", fun d s ↦ do return { s with batchSize := ← d.natural UInt64.size "usize" }⟩]

/-- Settings out of a document. -/
def ofText (text : String) : Decoded RecordSettings :=
  decodeText (Doc.record "TelemetryConfig" slots standard) text

end RecordSettings

end Supervision
