import Mathlib.Data.List.Forall2
import Supervision.Proofs.Store.Batches
import Supervision.Store.Summary

/-!
# What is stored can be read back

Reading a row back fails when its instance has no 32 bits or its moment is not in the calendar. What
operations are given is within these bounds (`Operation.IsTyped`), a stored moment is one of the
calendar if the moment that was given is (`isMicros_micros`), and no operation changes a key or a
record that is there. So every store that came about by such operations can be read back
(`isReadable_after`).
-/

namespace Supervision.Store

/-! ### Rows that can be read -/

/-- The instance of a key has 32 bits. -/
def HasInstance (key : RegistrationKey) : Prop :=
  0 ≤ key.instanceIndex ∧ key.instanceIndex < instanceLimit

instance (key : RegistrationKey) : Decidable (HasInstance key) :=
  inferInstanceAs (Decidable (_ ∧ _))

/-- Instances that are registered have 32 bits, and records that are added began in the calendar. -/
def Operation.IsTyped : Operation → Prop
  | .upsertListener l _ => HasInstance l.key
  | .upsertJob j _ => HasInstance j.key
  | .insert _ rs => ∀ r ∈ rs, r.startedAt.inRange = true
  | .begin .. | .heartbeat .. | .finish .. | .noteError .. | .finalizeOrphans | .sweep .. => True

instance : DecidablePred Operation.IsTyped
  | .upsertListener l _ => inferInstanceAs (Decidable (HasInstance l.key))
  | .upsertJob j _ => inferInstanceAs (Decidable (HasInstance j.key))
  | .insert _ rs => inferInstanceAs (Decidable (∀ r ∈ rs, r.startedAt.inRange = true))
  | .begin .. | .heartbeat .. | .finish .. | .noteError .. | .finalizeOrphans | .sweep .. =>
    inferInstanceAs (Decidable True)

/-- Instances have 32 bits, and records began in the calendar and have one of the statuses. -/
structure IsReadable (s : Store) : Prop where
  keys : ∀ f, ∀ g ∈ s.seats f, HasInstance g.key
  moments : ∀ f, ∀ r ∈ s.records f, Stamp.isMicros r.startedAt = true
  statuses : ∀ f, ∀ r ∈ s.records f, ∃ st : RecordStatus, r.status = st.name

theorem decodeKey_of_hasInstance {key : RegistrationKey} (h : HasInstance key) (column : Nat) :
    decodeKey column key = .ok key := if_pos h

theorem moment_of_isMicros {us : Int} (h : Stamp.isMicros us = true) (column : Nat) :
    moment column us = .ok (.ofMicros us) := if_pos h

/-- A moment of the calendar that was rounded down to whole microseconds is still one. -/
theorem isMicros_micros {t : Stamp} (h : t.inRange = true) : Stamp.isMicros t.micros = true := by
  rw [Stamp.inRange, Bool.and_eq_true, decide_eq_true_iff, decide_eq_true_iff, Stamp.minSeconds,
    Stamp.endSeconds] at h
  rw [Stamp.isMicros, Stamp.inRange, Bool.and_eq_true, decide_eq_true_iff, decide_eq_true_iff,
    Stamp.minSeconds, Stamp.endSeconds, Stamp.ofMicros, Stamp.micros,
    Int.fdiv_eq_ediv_of_nonneg _ (by decide)]
  dsimp only
  omega

/-- When a computation succeeds on each element, it succeeds on all of them, and what it gives is
related to them one by one. -/
theorem exists_mapM_ok {α β ε : Type} {f : α → Except ε β} {R : α → β → Prop} (xs : List α)
    (each : ∀ x ∈ xs, ∃ y, f x = .ok y ∧ R x y) :
    ∃ ys, xs.mapM f = .ok ys ∧ List.Forall₂ R xs ys := by
  induction xs with
  | nil => exact ⟨[], rfl, .nil⟩
  | cons x xs ih =>
    obtain ⟨y, first, related⟩ := each x List.mem_cons_self
    obtain ⟨ys, rest, pairs⟩ := ih fun z mem ↦ each z (List.mem_cons_of_mem x mem)
    refine ⟨y :: ys, ?_, .cons related pairs⟩
    rw [List.mapM_cons, first, rest]
    rfl

/-! ### Stores that can be read -/

variable {s : Store} {op : Operation} {f : Family}

/-- A record is there before the operation, or it is one that the operation adds. -/
theorem mem_records_apply (lost : s.sessionsLost = false) {row : RecordRow}
    (mem : row ∈ (op.apply s).records f) :
    row ∈ s.records f ∨
      ∃ faults rs r, op = .insert faults rs ∧ r ∈ rs ∧ row = .ofRecord row.id r := by
  have keeps (same : (op.apply s).records f = s.records f) : row ∈ s.records f := same ▸ mem
  have elsewhere (off : op.isOnShelves = false) : (op.apply s).records f = s.records f := by
    obtain ⟨listeners, jobs⟩ := shelves_apply lost off
    cases f with
    | listener => exact congrArg Shelf.records listeners
    | job => exact congrArg Shelf.records jobs
  match op with
  | .upsertListener l now =>
    refine .inl (keeps ?_)
    cases f with
    | listener => exact (s.listeners.registered_upsert l.key _ now.micros).records
    | job => rfl
  | .upsertJob j now =>
    refine .inl (keeps ?_)
    cases f with
    | listener => rfl
    | job => exact (s.jobs.registered_upsert j.key _ now.micros).records
  | .insert faults rs =>
    rcases gains_or_stays faults rs s with gains | stays
    · rw [Operation.apply, gains.records f] at mem
      rcases List.mem_append.mp mem with old | added
      · exact .inl old
      · obtain ⟨r, given, same⟩ := exists_of_mem_rowsAfter added
        have given := (List.mem_filter.mp (List.mem_filter.mp given).1).1
        exact .inr ⟨faults, rs, r, rfl, given, same⟩
    · rw [Operation.apply, stays] at mem
      exact .inl mem
  | .sweep used now retention limit =>
    refine .inl (sweep_keeps (P := fun t ↦ (t.records f) ⊆ s.records f) (fun _ _ some ↦ ?_)
      (fun _ some ↦ ?_) (fun _ _ some ↦ ?_) used now retention limit (List.Subset.refl _) mem)
    · cases f <;> exact fun _ mem ↦ some (List.mem_filter.mp mem).1
    · cases f <;> exact fun _ mem ↦ some (List.mem_filter.mp mem).1
    · cases f <;> exact some
  | .begin .. | .heartbeat .. | .finish .. | .noteError .. | .finalizeOrphans =>
    exact .inl (keeps (elsewhere rfl))

/-- The key of a seat is there before the operation, or it is the one that the operation
registers. -/
theorem hasInstance_of_registers {key : RegistrationKey} {now id : Int} (typed : op.IsTyped)
    (h : s.Registers f op key now id) : HasInstance key := by
  cases h with
  | listener l now => exact typed
  | job j now => exact typed

namespace IsReadable

theorem empty : IsReadable {} where
  keys f := by cases f <;> exact List.forall_mem_nil _
  moments f := by cases f <;> exact List.forall_mem_nil _
  statuses f := by cases f <;> exact List.forall_mem_nil _

/-- **An operation that is given what its types admit keeps a store readable.** -/
theorem apply (h : s.IsReadable) (lost : s.sessionsLost = false) (typed : op.IsTyped) :
    (op.apply s).IsReadable where
  keys f g there := by
    have change := seatChange_apply lost f op
    generalize (op.apply s).seats f = seats at there change
    cases change with
    | stays => exact h.keys f g there
    | removes sweeps some => exact h.keys f g (some.mem there)
    | adds registers new =>
      rcases List.mem_append.mp there with old | added
      · exact h.keys f g old
      · rw [List.mem_singleton.mp added]
        exact hasInstance_of_registers typed registers
  moments f row there := by
    rcases mem_records_apply lost there with old | ⟨faults, rs, r, rfl, given, same⟩
    · exact h.moments f row old
    · rw [same]
      exact isMicros_micros (typed r given)
  statuses f row there := by
    rcases mem_records_apply lost there with old | ⟨faults, rs, r, rfl, given, same⟩
    · exact h.statuses f row old
    · exact ⟨r.status, by rw [same]; rfl⟩

end IsReadable

theorem isReadable_after {ops : List Operation} (typed : ∀ op ∈ ops, op.IsTyped) :
    (after ops {}).IsReadable := by
  induction ops using List.reverseRecOn with
  | nil => exact .empty
  | append_singleton ops op ih =>
    have before := ih fun o mem ↦ typed o (List.mem_append_left _ mem)
    rw [after_concat]
    exact before.apply (hasSessions_after ops).here
      (typed op (List.mem_append_right _ List.mem_cons_self))

/-! ### A night -/

/-- A job. -/
def alarm : Registration JobInfo where
  key := ⟨"home", 0, "alarm", ""⟩
  info := default

/-- The doorbell or the alarm was missed at a moment. -/
def missedAt (f : Family) (now : Stamp) : Record :=
  ⟨⟨f, 1⟩, 1, now, ⟨0⟩, .error, some "Missed", none, none⟩

/-- The doorbell rings and is then missed; the alarm is missed at the same moment and, as it turns
out afterwards, once before. -/
def night : List Operation :=
  [.upsertListener doorbell ⟨0⟩, .upsertJob alarm ⟨0⟩, .begin ⟨0⟩,
    .insert {} [rungAt ⟨5000⟩, missedAt .listener ⟨9000⟩, missedAt .job ⟨9000⟩,
      missedAt .job ⟨7000⟩]]

end Supervision.Store
