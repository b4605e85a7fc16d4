import Supervision.Recording.Pass

/-!
# A batch is as good as one write after the other

A batch that the store takes without a failure leaves the store as if its writes had been applied
one after the other, in the order in which they came off the queue (`Pass.after_of_isOk`). The
batch applies its records first and its session errors after them, so this rests on two facts:
records one by one are records in a transaction (`insertRecordsWith_ok`), and a record and a session
error can change places (`Write.apply_comm`), because neither looks at what the other changes.
-/

namespace Supervision

namespace Store

/-! ### Records -/

theorem sessionsLost_append (r : Record) (s : Store) :
    (s.append r).sessionsLost = s.sessionsLost := by
  rw [append]
  split <;> rfl

/-- One record, in a transaction of its own. -/
theorem apply_record {s : Store} (h : s.sessionsLost = false) (r : Record) :
    (Write.record r).apply s = if s.accepts r then s.append r else s := by
  rw [Write.apply, insertRecords, insertRecordsWith, if_neg (by simp), withSessions,
    if_neg (by simp [h]), transaction, insertFrom]
  by_cases keeps : s.accepts r = true
  · rw [if_pos keeps, if_pos keeps]
    rfl
  · rw [if_neg keeps, if_neg keeps]
    rfl

/-- A transaction that ends well has added its records one by one. -/
theorem insertFrom_ok {faults : Faults} {i written k : Nat} {s s' : Store} {rs : List Record}
    (lost : s.sessionsLost = false) (h : insertFrom faults i written s rs = (.ok k, s')) :
    s' = WriteOp.applyAll (rs.map fun r ↦ .write (.record r)) s := by
  induction rs generalizing i written s with
  | nil =>
    rw [insertFrom] at h
    split at h
    · cases h
    · exact (congrArg Prod.snd h).symm
  | cons r rs ih =>
    rw [insertFrom] at h
    split at h
    · cases h
    · rw [List.map_cons, WriteOp.applyAll, apply_record lost]
      by_cases keeps : s.accepts r = true
      · rw [if_pos keeps] at h ⊢
        exact ih ((sessionsLost_append r s).trans lost) h
      · rw [if_neg keeps] at h ⊢
        exact ih lost h

/-- Records that were added without a failure were added one by one. -/
theorem insertRecordsWith_ok {faults : Faults} {k : Nat} {s s' : Store} {rs : List Record}
    (h : s.insertRecordsWith faults rs = (.ok k, s')) :
    s' = WriteOp.applyAll (rs.map fun r ↦ .write (.record r)) s := by
  rw [insertRecordsWith] at h
  split at h
  · rename_i none
    rw [List.isEmpty_iff.mp none]
    exact (congrArg Prod.snd h).symm
  · rw [withSessions] at h
    split at h
    · cases h
    · rename_i lost
      rw [transaction] at h
      split at h
      · rename_i ended
        rw [← (Prod.mk.inj h).2]
        exact insertFrom_ok (Bool.eq_false_iff.mpr lost) ended
      · cases h

/-! ### Session errors among records -/

/-- One session error. -/
theorem apply_sessionError (id : Int) (f : Failure) (s : Store) :
    (Write.sessionError id f).apply s = if s.sessionsLost then s else
      { s with
        sessions := s.sessions.map fun row ↦
          if row.id == id && row.errorType.isNone then row.noteError f else row } := by
  rw [Write.apply, recordSessionError, anyChanged, updateSessions, withSessions]
  split <;> rfl

/-- A session error changes no number of a session. -/
theorem accepts_apply_sessionError (id : Int) (f : Failure) (r : Record) (s : Store) :
    ((Write.sessionError id f).apply s).accepts r = s.accepts r := by
  rw [apply_sessionError]
  split
  · rfl
  · rw [accepts, accepts, List.map_map]
    congr 2
    refine List.map_congr_left fun row _ ↦ ?_
    rw [Function.comp_apply]
    split <;> rfl

end Store

/-- A record and a session error can change places. -/
theorem Write.apply_comm (id : Int) (f : Failure) (r : Record) (s : Store) :
    (Write.sessionError id f).apply ((Write.record r).apply s) =
      (Write.record r).apply ((Write.sessionError id f).apply s) := by
  by_cases lost : s.sessionsLost = true
  · have stays : (Write.record r).apply s = s := by
      rw [Write.apply, Store.insertRecords, Store.insertRecordsWith, if_neg (by simp),
        Store.withSessions, if_pos lost]
    rw [stays, Store.apply_sessionError, if_pos lost, stays]
  · have here : s.sessionsLost = false := Bool.eq_false_iff.mpr lost
    have still : ((Write.sessionError id f).apply s).sessionsLost = false := by
      rw [Store.apply_sessionError, if_neg lost]
      exact here
    rw [Store.apply_record here, Store.apply_record still, Store.accepts_apply_sessionError]
    by_cases keeps : s.accepts r = true
    · rw [if_pos keeps, if_pos keeps, Store.apply_sessionError, Store.apply_sessionError,
        if_neg lost, Store.sessionsLost_append, if_neg lost, Store.append, Store.append]
      cases r.target.family <;> rfl
    · rw [if_neg keeps, if_neg keeps]

/-! ### Batches -/

namespace Batch

/-- The writes of a batch in the order in which the store gets them. -/
def writes (b : Batch) : List WriteOp :=
  b.records.map (fun r ↦ .write (.record r)) ++
    b.sessionErrors.map fun e ↦ .write (.sessionError e.1 e.2)

/-- A session error that comes before records can come after them. -/
theorem applyAll_records_comm (id : Int) (f : Failure) (rs : List Record) (s : Store) :
    WriteOp.applyAll (rs.map fun r ↦ .write (.record r)) ((Write.sessionError id f).apply s) =
      (Write.sessionError id f).apply
        (WriteOp.applyAll (rs.map fun r ↦ .write (.record r)) s) := by
  induction rs generalizing s with
  | nil => rfl
  | cons r rs ih =>
    simp only [List.map_cons, WriteOp.applyAll]
    rw [← Write.apply_comm, ih]

/-- Records first and session errors after them: the store does not see the difference. -/
theorem applyAll_writes_ofOps (ops : List WriteOp) (s : Store) :
    WriteOp.applyAll (ofOps ops).writes s = WriteOp.applyAll ops s := by
  induction ops generalizing s with
  | nil => rfl
  | cons op ops ih =>
    match op with
    | .write (.record r) => exact ih _
    | .sign ticket => exact ih _
    | .write (.sessionError id f) =>
      show _ = WriteOp.applyAll ops ((Write.sessionError id f).apply s)
      rw [← ih]
      show WriteOp.applyAll ((ofOps ops).records.map _ ++ .write (.sessionError id f) :: _) s =
        WriteOp.applyAll ((ofOps ops).records.map _ ++ _) _
      rw [WriteOp.applyAll_append, WriteOp.applyAll_append, applyAll_records_comm]
      rfl

/-- Session errors that were noted without a failure were noted one by one. -/
theorem noteErrors_ok {faults : Nat → Option StoreError} {i : Nat} {s s' : Store}
    {errors : List (Int × Failure)} (h : noteErrors faults i s errors = (.ok (), s')) :
    s' = WriteOp.applyAll (errors.map fun e ↦ .write (.sessionError e.1 e.2)) s := by
  induction errors generalizing i s with
  | nil => exact (congrArg Prod.snd h).symm
  | cons e errors ih =>
    rw [noteErrors] at h
    split at h
    · cases h
    · split at h
      · rename_i noted
        rw [ih h, List.map_cons, WriteOp.applyAll, Write.apply, noted]
      · cases h

/-- A batch in which nothing fails applies its writes. -/
theorem writeWith_ok {faults : BatchFaults} {b : Batch} {k : Nat} {s s' : Store}
    (h : b.writeWith faults s = (.ok k, s')) : s' = WriteOp.applyAll b.writes s := by
  rw [writeWith] at h
  split at h
  · rename_i idle
    rw [isIdle, Bool.and_eq_true, List.isEmpty_iff, List.isEmpty_iff] at idle
    rw [writes, idle.1, idle.2]
    exact (congrArg Prod.snd h).symm
  · split at h
    · cases h
    · rename_i added
      split at h
      · rename_i noted
        rw [← (Prod.mk.inj h).2, writes, WriteOp.applyAll_append, ← Store.insertRecordsWith_ok added]
        exact noteErrors_ok noted
      · cases h

end Batch

/-- **A batch that the store takes leaves it as its writes would, one after the other.** -/
theorem Pass.after_of_isOk {p : Pass} (h : p.isOk = true) :
    p.after = WriteOp.applyAll p.ops p.store := by
  obtain ⟨k, s', ended⟩ : ∃ k s', p.batch.writeWith p.faults p.store = (.ok k, s') := by
    rw [StoreCall.isOk] at h
    match ended : p.batch.writeWith p.faults p.store with
    | (.ok k, s') => exact ⟨k, s', rfl⟩
    | (.error e, s') => rw [ended] at h; exact absurd h Bool.false_ne_true
  rw [StoreCall.after, ended, Batch.writeWith_ok ended, p.made, Batch.applyAll_writes_ofOps]

/-- Passes that the store takes leave it as all their writes would, one after the other. -/
theorem Pass.eq_applyAll_of_lead {ps : List Pass} {s s' : Store}
    (h : StoreCall.Lead (ps.map (·.toStoreCall)) s s') (ok : ∀ p ∈ ps, p.isOk = true) :
    s' = WriteOp.applyAll (ps.flatMap (·.ops)) s := by
  induction ps generalizing s with
  | nil => exact h
  | cons p ps ih =>
    obtain ⟨rfl, rest⟩ := h
    rw [List.flatMap_cons, WriteOp.applyAll_append,
      ← Pass.after_of_isOk (ok p List.mem_cons_self)]
    exact ih rest fun q hq ↦ ok q (List.mem_cons_of_mem p hq)

end Supervision
