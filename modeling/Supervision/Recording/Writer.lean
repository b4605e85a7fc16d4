import Supervision.Recording.Sink
import Supervision.Store.Insert
import Supervision.Store.Session

/-!
# The writer

One writer empties the queue into the store, a batch at a time. A batch holds at most as many
records and session errors as fit (`Batch.room`); signs ride along and count for nothing. It is
filled one by one from what waits, and others may offer more while that goes on. Its records are
added in one transaction, then its session errors one by one; when the store fails, what is left of
the batch is lost. Either way its signs are given.

When it is told to stop, the writer closes the queue, writes what waits, and ends.

The faults that befall the store are data (`BatchFaults`), so the writer is a function of the queue,
the store and those faults.
-/

namespace Supervision

/-- Writes that go into the store together. -/
structure Batch where
  /-- Records, in order. -/
  records : List Record := []
  /-- Session errors, in order. -/
  sessionErrors : List (Int × Failure) := []
  /-- Signs to give once it is through. -/
  signs : List Nat := []
deriving DecidableEq, Inhabited

/-- What may go wrong with one batch. -/
structure BatchFaults where
  /-- With its records. -/
  insert : Store.Faults := {}
  /-- With the session error in a position. -/
  atSessionError : Nat → Option StoreError := fun _ ↦ none

namespace Batch

/-- The room of a batch: one write at least. -/
def room (batchSize : Nat) : Nat := max batchSize 1

/-- How much of its room a batch fills. -/
def size (b : Batch) : Nat := b.records.length + b.sessionErrors.length

/-- Adds what comes off the queue. -/
def push (op : WriteOp) (b : Batch) : Batch :=
  match op with
  | .write (.record r) => { b with records := b.records ++ [r] }
  | .write (.sessionError id f) => { b with sessionErrors := b.sessionErrors ++ [(id, f)] }
  | .sign ticket => { b with signs := b.signs ++ [ticket] }

/-- Nothing in it needs the store. -/
def isIdle (b : Batch) : Bool := b.records.isEmpty && b.sessionErrors.isEmpty

/-- Notes session errors one by one, up to the first that fails. -/
def noteErrors (faults : Nat → Option StoreError) (i : Nat) (s : Store) :
    List (Int × Failure) → Store.Result Unit
  | [] => (.ok (), s)
  | (id, f) :: rest =>
    match faults i with
    | some e => (.error e, s)
    | none =>
      match s.recordSessionError id f with
      | (.ok _, s) => noteErrors faults (i + 1) s rest
      | (.error e, s) => (.error e, s)

/-- Writes a batch into the store; how many records were added. -/
def writeWith (faults : BatchFaults) (b : Batch) (s : Store) : Store.Result Nat :=
  if b.isIdle then (.ok 0, s)
  else
    match s.insertRecordsWith faults.insert b.records with
    | (.error e, s) => (.error e, s)
    | (.ok written, s) =>
      match noteErrors faults.atSessionError 0 s b.sessionErrors with
      | (.ok (), s) => (.ok written, s)
      | (.error e, s) => (.error e, s)

end Batch

/-- Where a writer stands. -/
inductive WriterStage where
  /-- Waits for something to write, or for the word to stop. -/
  | waiting
  /-- Takes more of what waits, as long as there is some and the batch has room. -/
  | filling (batch : Batch)
  /-- The store works on a batch; `last` when the writer was told to stop. -/
  | writing (batch : Batch) (last : Bool)
  /-- Told to stop; gathers what still waits. -/
  | emptying (batch : Batch)
  /-- The store works on the last batch. -/
  | closing (batch : Batch)
  /-- Done. -/
  | ended
deriving DecidableEq

/-- A writer with its queue and its store. -/
structure Writer where
  /-- The queue. -/
  sink : Sink
  /-- The store. -/
  store : Store
  /-- Writes that go into one batch. -/
  batchSize : Nat
  /-- It was told to stop. -/
  stop : Bool := false
  /-- Where it stands. -/
  stage : WriterStage := .waiting
  /-- Signs given so far. -/
  given : List Nat := []

namespace Writer

/-- It is done. -/
def isOver (w : Writer) : Bool := w.stage = .ended

/-- It has something to do. -/
def isEnabled (w : Writer) : Bool :=
  match w.stage with
  | .waiting => w.stop || !w.sink.queue.isEmpty
  | .filling _ | .writing _ _ | .emptying _ | .closing _ => true
  | .ended => false

/-- The store has worked on a batch: its signs are given. -/
def write (faults : BatchFaults) (b : Batch) (next : WriterStage) (w : Writer) : Writer :=
  { w with
    store := (b.writeWith faults w.store).2
    given := w.given ++ b.signs
    stage := next }

/-- One step. The faults befall the store if this step uses it. -/
def step (faults : BatchFaults) (w : Writer) : Writer :=
  match w.stage with
  | .waiting =>
    if w.stop then { w with sink := w.sink.close, stage := .emptying {} }
    else
      match w.sink.queue with
      | [] => w
      | op :: rest =>
        { w with sink := { w.sink with queue := rest }, stage := .filling (Batch.push op {}) }
  | .filling batch =>
    match w.sink.queue with
    | [] => { w with stage := .writing batch false }
    | op :: rest =>
      if batch.size < Batch.room w.batchSize then
        { w with sink := { w.sink with queue := rest }, stage := .filling (batch.push op) }
      else { w with stage := .writing batch false }
  | .writing batch last => w.write faults batch (if last then .emptying {} else .waiting)
  | .emptying batch =>
    match w.sink.queue with
    | [] => { w with stage := .closing batch }
    | op :: rest =>
      let batch := batch.push op
      { w with
        sink := { w.sink with queue := rest }
        stage := if Batch.room w.batchSize ≤ batch.size then .writing batch true
          else .emptying batch }
  | .closing batch => w.write faults batch .ended
  | .ended => w

/-- Goes on until it has to wait, in at most `fuel` steps, with a store that does not fail. -/
def goOn : Nat → Writer → Writer
  | 0, w => w
  | fuel + 1, w => if w.isEnabled then goOn fuel (w.step {}) else w

/-- Goes on until it has to wait. Each write in the queue costs three steps at most, a batch that
was begun two more, and the end three more. -/
def settle (w : Writer) : Writer := w.goOn (3 * w.sink.queue.length + 6)

/-- Offers a write to the queue: whether it was taken, what is logged, and the writer after it. -/
def offer (x : Write) (w : Writer) : Bool × List LogLine × Writer :=
  let (taken, lines, sink) := w.sink.offer x
  (taken, lines, { w with sink := sink })

end Writer

end Supervision
