import Supervision.Recording.Writer

/-!
# The writer among those it works for

What the writer does depends on when it is told to stop and on how its steps fall between the offers
of others. A `WriterMove` is one such event, and a `Trace` is where a list of moves has led, with a
record of what was taken into the queue and of the batches that went to the store (`StoreCall`).

Beside the batches of the writer stands the plain way to write: one write after the other
(`Write.apply`).
-/

namespace Supervision

/-! ### One write at a time -/

/-- Stores one write. -/
def Write.apply (w : Write) (s : Store) : Store :=
  match w with
  | .record r => (s.insertRecords [r]).2
  | .sessionError id f => (s.recordSessionError id f).2

/-- Stores what came through the queue, one write after the other; signs change nothing. -/
def WriteOp.applyAll : List WriteOp → Store → Store
  | [], s => s
  | .write w :: ops, s => applyAll ops (w.apply s)
  | .sign _ :: ops, s => applyAll ops s

theorem WriteOp.applyAll_append (ops more : List WriteOp) (s : Store) :
    applyAll (ops ++ more) s = applyAll more (applyAll ops s) := by
  induction ops generalizing s with
  | nil => rfl
  | cons op ops ih => cases op <;> simp [applyAll, ih]

/-! ### Calls of the store -/

/-- A batch that went to the store. -/
structure StoreCall where
  /-- The batch. -/
  batch : Batch
  /-- What befell the store. -/
  faults : BatchFaults
  /-- The store before it. -/
  store : Store

namespace StoreCall

/-- The store after it. -/
def after (c : StoreCall) : Store := (c.batch.writeWith c.faults c.store).2

/-- The store reports no failure. -/
def isOk (c : StoreCall) : Bool := (c.batch.writeWith c.faults c.store).1.isOk

/-- Calls that follow one another lead from one store to another. -/
def Lead : List StoreCall → Store → Store → Prop
  | [], s, s' => s' = s
  | c :: cs, s, s' => c.store = s ∧ Lead cs c.after s'

/-- One call more. -/
theorem Lead.concat {cs : List StoreCall} {s : Store} {c : StoreCall} (h : Lead cs s c.store) :
    Lead (cs ++ [c]) s c.after := by
  induction cs generalizing s with
  | nil => exact ⟨h, rfl⟩
  | cons _ _ ih => exact ⟨h.1, ih h.2⟩

end StoreCall

/-- The batch that the store works on. -/
def WriterStage.atStore? : WriterStage → Option Batch
  | .writing b _ | .closing b => some b
  | .waiting | .filling _ | .emptying _ | .ended => none

/-! ### Moves -/

/-- Something that happens to a writer. -/
inductive WriterMove where
  /-- Somebody offers a write. -/
  | offer (w : Write)
  /-- Somebody puts a sign into the queue, if that can be done now. -/
  | sign (ticket : Nat)
  /-- A place is kept for a sign that waits, if one is free. -/
  | keep
  /-- A sign that has waited goes into a place that is kept. -/
  | signKept (ticket : Nat)
  /-- Somebody who has waited with a sign gives up, and with it the place that is kept. -/
  | giveBack
  /-- The writer is told to stop. When everybody who could offer something is gone, and the queue is
  empty, that comes to the same. -/
  | stop
  /-- The writer takes a step; the faults befall the store if the step uses it. -/
  | step (faults : BatchFaults)

/-- Where moves have led. -/
structure Trace where
  /-- The writer. -/
  writer : Writer
  /-- What was taken into the queue, oldest first. -/
  taken : List WriteOp := []
  /-- How many writes were refused. -/
  refused : Nat := 0
  /-- The batches that went to the store, oldest first. -/
  calls : List StoreCall := []

namespace Trace

/-- A new writer on a store. -/
def start (capacity batchSize : Nat) (s : Store) : Trace where
  writer := { sink := .ofCapacity capacity, store := s, batchSize := batchSize }

/-- One move. -/
def move (t : Trace) (m : WriterMove) : Trace :=
  match m with
  | .offer x =>
    let (taken, _, w) := t.writer.offer x
    if taken then { t with writer := w, taken := t.taken ++ [.write x] }
    else { t with writer := w, refused := t.refused + 1 }
  | .sign ticket =>
    let w := { t.writer with sink := t.writer.sink.putSign ticket }
    if t.writer.sink.takesSign then { t with writer := w, taken := t.taken ++ [.sign ticket] }
    else { t with writer := w }
  | .keep => { t with writer := { t.writer with sink := t.writer.sink.keep } }
  | .signKept ticket =>
    let w := { t.writer with sink := t.writer.sink.putKept ticket }
    if t.writer.sink.takesKept then { t with writer := w, taken := t.taken ++ [.sign ticket] }
    else { t with writer := w }
  | .giveBack => { t with writer := { t.writer with sink := t.writer.sink.giveBack } }
  | .stop => { t with writer := { t.writer with stop := true } }
  | .step faults =>
    let call := t.writer.stage.atStore?.map fun b ↦ ⟨b, faults, t.writer.store⟩
    { t with writer := t.writer.step faults, calls := t.calls ++ call.toList }

/-- Moves, one after the other. -/
def moves (ms : List WriterMove) (t : Trace) : Trace := ms.foldl move t

@[simp] theorem moves_nil (t : Trace) : t.moves [] = t := rfl

@[simp] theorem moves_cons (m : WriterMove) (ms : List WriterMove) (t : Trace) :
    t.moves (m :: ms) = (t.move m).moves ms := rfl

end Trace

end Supervision
