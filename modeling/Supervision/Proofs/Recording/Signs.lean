import Supervision.Proofs.Recording.Passes

/-!
# What a sign says

A sign is given when its batch is through, whatever the store has made of it. So it says less than
that all the writes before it have been applied: it says so exactly when the store has taken all the
batches before its own, and of its own batch what stands before the sign (`Trace.sign_isTrue_iff`).

What the store reports of a batch is the first thing that went wrong with it, so it says something
about each of the writes: none of them is lost exactly when the batch is taken (`Pass.isOk_iff`), and
the same holds of those that come first in it (`Pass.applies_first_iff`).
-/

namespace Supervision

namespace Batch

/-- Session errors that were all noted were noted up to any of them. -/
theorem noteErrors_append_isOk {faults : Nat → Option StoreError} {i : Nat} {s : Store}
    {first rest : List (Int × Failure)}
    (h : (noteErrors faults i s (first ++ rest)).1.isOk = true) :
    (noteErrors faults i s first).1.isOk = true := by
  induction first generalizing i s with
  | nil => rfl
  | cons e first ih =>
    rw [List.cons_append, noteErrors] at h
    rw [noteErrors]
    split at h
    · exact h
    · split at h
      · exact ih h
      · exact h

end Batch

namespace Pass

/-- The batch as it was when it was made of the first `k`. -/
def first (p : Pass) (k : Nat) : Batch := .ofOps (p.ops.take k)

/-- The store has taken what a part of the batch is made of: nothing was asked of it, or it added
the records and noted the session errors. -/
def Takes (p : Pass) (part : Batch) : Prop :=
  part.isIdle = true ∨ p.adds = true ∧ p.notes part.sessionErrors = true

theorem notes_nil (p : Pass) : p.notes [] = true := rfl

/-- Nothing to note. -/
theorem notes_of_isIdle {p : Pass} {part : Batch} (h : part.isIdle = true) :
    p.notes part.sessionErrors = true := by
  rw [Batch.isIdle, Bool.and_eq_true, List.isEmpty_iff, List.isEmpty_iff] at h
  rw [h.2]
  exact p.notes_nil

theorem first_succ {p : Pass} {k : Nat} {op : WriteOp} (h : p.ops[k]? = some op) :
    p.first (k + 1) = (p.first k).push op := by
  rw [first, first, Batch.push_ofOps, List.take_add_one, h]
  rfl

/-- The write in a position, and what the store has taken. -/
theorem takes_first_succ (p : Pass) (k : Nat) :
    p.Takes (p.first (k + 1)) ↔ p.Takes (p.first k) ∧ p.applies k = true := by
  match at_ : p.ops[k]? with
  | none =>
    have same : p.first (k + 1) = p.first k := by
      rw [first, first, List.take_add_one, at_]
      exact congrArg Batch.ofOps (List.append_nil _)
    rw [same, applies, at_]
    exact (and_iff_left rfl).symm
  | some (.sign ticket) =>
    rw [first_succ at_, applies, at_]
    exact (and_iff_left rfl).symm
  | some (.write (.record r)) =>
    have busy : ((p.first k).push (.write (.record r))).isIdle = false := by
      rw [Batch.push, Batch.isIdle]
      simp
    rw [first_succ at_, applies, at_]
    constructor
    · rintro (idle | ⟨adds, notes⟩)
      · exact absurd (busy.symm.trans idle) Bool.false_ne_true
      · exact ⟨.inr ⟨adds, notes⟩, adds⟩
    · rintro ⟨idle | ⟨-, notes⟩, adds⟩
      · have notes : p.notes (p.first k).sessionErrors = true := notes_of_isIdle idle
        exact .inr ⟨adds, notes⟩
      · exact .inr ⟨adds, notes⟩
  | some (.write (.sessionError id f)) =>
    have busy : ((p.first k).push (.write (.sessionError id f))).isIdle = false := by
      rw [Batch.push, Batch.isIdle]
      simp
    have here : p.applies k = (p.adds && p.notes (p.first (k + 1)).sessionErrors) := by
      rw [applies, at_]
      rfl
    rw [here, Bool.and_eq_true, first_succ at_]
    constructor
    · rintro (idle | ⟨adds, notes⟩)
      · exact absurd (busy.symm.trans idle) Bool.false_ne_true
      · exact ⟨.inr ⟨adds, Batch.noteErrors_append_isOk notes⟩, adds, notes⟩
    · rintro ⟨-, adds, notes⟩
      exact .inr ⟨adds, notes⟩

/-- The writes that come first in a batch are applied exactly when the store has taken them. -/
theorem applies_first_iff (p : Pass) (k : Nat) :
    (∀ j < k, p.applies j = true) ↔ p.Takes (p.first k) := by
  induction k with
  | zero => exact ⟨fun _ ↦ .inl rfl, fun _ j none ↦ absurd none (Nat.not_lt_zero j)⟩
  | succ k ih =>
    rw [takes_first_succ, ← ih]
    constructor
    · intro all
      exact ⟨fun j lt ↦ all j (Nat.lt_succ_of_lt lt), all k (Nat.lt_succ_self k)⟩
    · rintro ⟨before, here⟩ j lt
      rcases Nat.lt_succ_iff_lt_or_eq.mp lt with lt | rfl
      · exact before j lt
      · exact here

/-- The store has taken a batch if it reports no failure. -/
theorem takes_batch_iff (p : Pass) : p.Takes p.batch ↔ p.isOk = true := by
  rw [Takes, StoreCall.isOk, Batch.writeWith]
  by_cases idle : p.batch.isIdle = true
  · rw [if_pos idle]
    exact iff_of_true (.inl idle) rfl
  · rw [if_neg idle, or_iff_right idle, adds, notes]
    obtain ⟨error | written, s⟩ := p.store.insertRecordsWith p.faults.insert p.batch.records
    · exact iff_of_false (fun h ↦ Bool.false_ne_true h.1) Bool.false_ne_true
    · dsimp only
      obtain ⟨error | noted, s'⟩ := Batch.noteErrors p.faults.atSessionError 0 s p.batch.sessionErrors
      · exact iff_of_false (fun h ↦ Bool.false_ne_true h.2) Bool.false_ne_true
      · exact iff_of_true ⟨rfl, rfl⟩ rfl

/-- **None of the writes of a batch is lost exactly when the store reports no failure.** -/
theorem isOk_iff (p : Pass) : p.isOk = true ↔ ∀ j, p.applies j = true := by
  have all : p.first p.ops.length = p.batch := by
    rw [first, List.take_length, p.made]
  rw [← takes_batch_iff, ← all, ← applies_first_iff]
  refine ⟨fun h j ↦ ?_, fun h j _ ↦ h j⟩
  rcases Nat.lt_or_ge j p.ops.length with lt | ge
  · exact h j lt
  · rw [applies, List.getElem?_eq_none ge]

end Pass

namespace Trace

/-- **What a sign says.** Every sign that went along with a batch is given. That all the writes
before it have been applied is true exactly when the store has taken the batches before its own, and
of its own batch what stands before the sign. -/
theorem sign_isTrue_iff (capacity batchSize : Nat) (s : Store) (ms : List WriterMove) :
    ∃ ps held, ((start capacity batchSize s).moves ms).HasPassed s ps held ∧
      ∀ earlier p later k ticket, ps = earlier ++ p :: later →
        p.ops[k]? = some (.sign ticket) →
        ((∀ q ∈ earlier, ∀ j, q.applies j = true) ∧ (∀ j < k, p.applies j = true) ↔
          (∀ q ∈ earlier, q.isOk = true) ∧ p.Takes (p.first k)) := by
  obtain ⟨ps, held, h⟩ := exists_hasPassed capacity batchSize s ms
  refine ⟨ps, held, h, fun earlier p later k ticket _ _ ↦ ?_⟩
  rw [p.applies_first_iff]
  exact and_congr_left' (forall₂_congr fun q _ ↦ q.isOk_iff.symm)

/-! ### A sign after a loss -/

/-- A store without its sessions. -/
def burntStore : Store := { sessionsLost := true }

/-- A record for it, and a sign behind the record. -/
def burntMoves : List WriterMove :=
  [.offer (.record default), .sign 7, .step {}, .step {}, .step {}, .step {}, .step {}, .step {}]

/-- The batch that holds the record. -/
def burntPass : Pass where
  batch := .ofOps [.write (.record default)]
  faults := {}
  store := burntStore
  ops := [.write (.record default)]
  made := rfl

/-- The batch that holds the sign. -/
def burntSign : Pass where
  batch := .ofOps [.sign 7]
  faults := {}
  store := burntStore
  ops := [.sign 7]
  made := rfl

/-- The record is lost, and the sign behind it is given. -/
theorem burnt_sign_is_false :
    let t := (start 2 1 burntStore).moves burntMoves
    t.HasPassed burntStore [burntPass, burntSign] [] ∧ t.writer.given = [7] ∧
      burntPass.applies 0 = false :=
  ⟨⟨by decide, rfl, rfl, ⟨rfl, rfl, rfl⟩, by decide⟩, by decide, by decide⟩

end Trace

end Supervision
