import Supervision.Store.Insert
import Supervision.Store.Session
import Supervision.Store.Sweep
import Supervision.Store.Upsert

/-!
# Histories of a store

A store changes by operations only (`Store.Operation`). What every operation keeps is kept by
operations one after the other (`after_keeps`), so what holds of the empty store and is kept by every
operation holds whatever was done to the store.

An operation that needs the sessions may fail, and then it changes nothing; adding records may also
meet faults of the engine, which are part of the operation. The size that a sweep measures is
anyone's guess, so it is part of the operation as well.
-/

namespace Supervision.Store

/-- An operation that may change a store. -/
inductive Operation where
  /-- Registers a listener. -/
  | upsertListener (l : Registration ListenerInfo) (now : Stamp)
  /-- Registers a job. -/
  | upsertJob (j : Registration JobInfo) (now : Stamp)
  /-- Adds records in one transaction. -/
  | insert (faults : Faults) (rs : List Record)
  /-- Opens a session. -/
  | begin (now : Stamp)
  /-- Gives a sign of life. -/
  | heartbeat (id : Int) (now : Stamp)
  /-- Closes a session. -/
  | finish (id : Int) (status : SessionStatus) (failure : Option Failure) (now : Stamp)
  /-- Notes the first error of a session. -/
  | noteError (id : Int) (f : Failure)
  /-- Closes what earlier processes left open. -/
  | finalizeOrphans
  /-- Removes what is too old or too much. -/
  | sweep (used : Store → Nat) (now : Stamp) (retention : Span) (limit : Nat)

/-- The store after an operation. -/
def Operation.apply (op : Operation) (s : Store) : Store :=
  match op with
  | .upsertListener l now => (s.upsertListener l now).2
  | .upsertJob j now => (s.upsertJob j now).2
  | .insert faults rs => (s.insertRecordsWith faults rs).2
  | .begin now => (s.beginSession now).2
  | .heartbeat id now => (s.heartbeat id now).2
  | .finish id status failure now => (s.finishSession id status failure now).2
  | .noteError id f => (s.recordSessionError id f).2
  | .finalizeOrphans => s.finalizeOrphans.2
  | .sweep used now retention limit => (s.sweep used now retention limit).2

/-- The store after operations, one after the other. -/
def after (ops : List Operation) (s : Store) : Store := ops.foldl (fun s op ↦ op.apply s) s

@[simp] theorem after_nil (s : Store) : s.after [] = s := rfl

@[simp] theorem after_cons (op : Operation) (ops : List Operation) (s : Store) :
    s.after (op :: ops) = (op.apply s).after ops := rfl

theorem after_append (ops more : List Operation) (s : Store) :
    s.after (ops ++ more) = (s.after ops).after more := by
  simp [after, List.foldl_append]

/-- What every operation keeps is kept by operations one after the other. -/
theorem after_keeps {P : Store → Prop} (step : ∀ s op, P s → P (Operation.apply op s))
    (ops : List Operation) (s : Store) (h : P s) : P (s.after ops) := by
  induction ops generalizing s with
  | nil => exact h
  | cons op ops ih => exact ih _ (step s op h)

end Supervision.Store
