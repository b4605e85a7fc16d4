import Supervision.Recording.Trace

/-!
# What a batch was made of

A batch keeps records, session errors and signs apart, so it does not say in which order they came
off the queue. A `Pass` is a call of the store that remembers it. What became of each write is read
off what the store reported (`Pass.applies`): records are added together or not at all, and session
errors are noted up to the first that fails.

* `Batch.push_ofOps` — a batch keeps the order of the queue, for each kind of write.
-/

namespace Supervision

namespace WriteOp

/-- The record to be stored. -/
def record? : WriteOp → Option Record
  | .write (.record r) => some r
  | _ => none

/-- The session error to be noted. -/
def sessionError? : WriteOp → Option (Int × Failure)
  | .write (.sessionError id f) => some (id, f)
  | _ => none

/-- The number of the sign. -/
def ticket? : WriteOp → Option Nat
  | .sign ticket => some ticket
  | _ => none

/-- The numbers of signs, in order. -/
def tickets (ops : List WriteOp) : List Nat := ops.filterMap ticket?

theorem tickets_append (ops more : List WriteOp) :
    tickets (ops ++ more) = tickets ops ++ tickets more := List.filterMap_append

end WriteOp

namespace Batch

/-- The batch of what came off the queue. -/
def ofOps (ops : List WriteOp) : Batch where
  records := ops.filterMap WriteOp.record?
  sessionErrors := ops.filterMap WriteOp.sessionError?
  signs := WriteOp.tickets ops

@[simp] theorem ofOps_nil : ofOps [] = {} := rfl

/-- What is taken next comes last. -/
theorem push_ofOps (op : WriteOp) (ops : List WriteOp) :
    (ofOps ops).push op = ofOps (ops ++ [op]) := by
  match op with
  | .write (.record r) => simp [ofOps, push, WriteOp.tickets, WriteOp.record?,
      WriteOp.sessionError?, WriteOp.ticket?]
  | .write (.sessionError id f) => simp [ofOps, push, WriteOp.tickets, WriteOp.record?,
      WriteOp.sessionError?, WriteOp.ticket?]
  | .sign ticket => simp [ofOps, push, WriteOp.tickets, WriteOp.record?,
      WriteOp.sessionError?, WriteOp.ticket?]

/-- Only nothing makes an empty batch. -/
theorem eq_nil_of_ofOps {ops : List WriteOp} (h : ofOps ops = {}) : ops = [] := by
  cases ops with
  | nil => rfl
  | cons op ops =>
    rw [ofOps, Batch.mk.injEq] at h
    match op with
    | .write (.record r) => exact absurd h.1 (List.cons_ne_nil _ _)
    | .write (.sessionError id f) => exact absurd h.2.1 (List.cons_ne_nil _ _)
    | .sign ticket => exact absurd h.2.2 (List.cons_ne_nil _ _)

end Batch

/-- A call of the store together with the writes and signs that its batch was made of. -/
structure Pass extends StoreCall where
  /-- What it was made of, in order. -/
  ops : List WriteOp
  made : batch = .ofOps ops

namespace Pass

/-- Its records were added; those that name what the store does not know were left out. -/
def adds (p : Pass) : Bool := (p.store.insertRecordsWith p.faults.insert p.batch.records).1.isOk

/-- The first of its session errors were noted without a failure. -/
def notes (p : Pass) (first : List (Int × Failure)) : Bool :=
  (Batch.noteErrors p.faults.atSessionError 0
    (p.store.insertRecordsWith p.faults.insert p.batch.records).2 first).1.isOk

/-- What stands in a position was applied by a call of the store that did not fail; a sign needs
none. -/
def applies (p : Pass) (k : Nat) : Bool :=
  match p.ops[k]? with
  | some (.write (.record _)) => p.adds
  | some (.write (.sessionError _ _)) =>
    p.adds && p.notes (Batch.ofOps (p.ops.take (k + 1))).sessionErrors
  | _ => true

end Pass

end Supervision
