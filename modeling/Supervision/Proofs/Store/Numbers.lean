import Supervision.Proofs.Store.Integrity

/-!
# Numbers that come back

A registration takes the next number of its family, and the next number depends on what is there: a
number that a sweep has freed may be given to another registration. When that happens is said
exactly (`number_comes_back_iff`): another key is registered for the first time while the number is
directly above all numbers there. A record that was made for the old registration then counts for
the new one (`doorbell_rings_at_the_neighbours`). Numbers of sessions do not come back, because they
are counted (`nextSession`).
-/

namespace Supervision.Store

variable {s : Store} {f : Family} {op : Operation} {key : RegistrationKey} {now id : Int}

/-- A number is the next of a family: it is above all that are there, and directly above one of them
unless it is the first of all. -/
def IsNext (f : Family) (id : Int) (s : Store) : Prop :=
  (∀ n ∈ s.registrationIds f, n < id) ∧ (1 < id → id - 1 ∈ s.registrationIds f)

theorem IsSound.pos_ids (h : s.IsSound) (f : Family) : ∀ n ∈ s.registrationIds f, 0 < n := by
  cases f with
  | listener => exact List.forall_mem_map.mpr h.listeners.positive
  | job => exact List.forall_mem_map.mpr h.jobs.positive

/-- Numbers that are given are positive. -/
theorem Registers.pos (sound : s.IsSound) (h : s.Registers f op key now id) : 0 < id := by
  obtain ⟨g, there, -, rfl⟩ := h.exists_seat
  exact (sound.apply op).pos_ids f g.id (map_id_seats f (op.apply s) ▸ List.mem_map_of_mem there)

/-- A key that has no seat is given the next number. -/
theorem Registers.eq_nextId (h : s.Registers f op key now id)
    (new : ∀ g ∈ s.seats f, g.key ≠ key) : id = nextId (s.registrationIds f) := by
  cases h with
  | listener l now =>
    rcases s.listeners.seats_upsert l.key (.ofInfo l.info) now.micros with
      ⟨-, g, there, own, -⟩ | ⟨-, -, number⟩
    · exact absurd own (new g there)
    · exact number
  | job j now =>
    rcases s.jobs.seats_upsert j.key (.ofInfo j.info) now.micros with
      ⟨-, g, there, own, -⟩ | ⟨-, -, number⟩
    · exact absurd own (new g there)
    · exact number

/-- If a number is one day under another key, then that key was registered for the first time when
the number was next. -/
theorem exists_registers_next (lost : s.sessionsLost = false) {ops : List Operation}
    (own : ∀ g ∈ s.seats f, g.id = id → g.key = key) {g : Seat}
    (there : g ∈ (s.after ops).seats f) (number : g.id = id) (other : g.key ≠ key) :
    ∃ m op rest key' now', ops = m ++ op :: rest ∧ key' ≠ key ∧
      (s.after m).Registers f op key' now' id ∧ (∀ x ∈ (s.after m).seats f, x.key ≠ key') ∧
      nextId ((s.after m).registrationIds f) = id := by
  induction ops generalizing s with
  | nil => exact absurd (own g there number) other
  | cons op ops ih =>
    by_cases still : ∀ x ∈ (op.apply s).seats f, x.id = id → x.key = key
    · obtain ⟨m, op', rest, key', now', rfl, found⟩ :=
        ih (sessionsLost_apply lost op) still there
      exact ⟨op :: m, op', rest, key', now', rfl, found⟩
    · -- This operation is the first to put another key under the number.
      push Not at still
      obtain ⟨x, here, same, strange⟩ := still
      have change := seatChange_apply lost f op
      generalize (op.apply s).seats f = seats at here change
      cases change with
      | stays => exact absurd (own x here same) strange
      | removes sweeps some => exact absurd (own x (some.mem here) same) strange
      | @adds key' now' registers new =>
        rcases List.mem_append.mp here with old | added
        · exact absurd (own x old same) strange
        · rw [List.mem_singleton.mp added] at same strange
          exact ⟨[], op, ops, key', now', rfl, strange, same ▸ registers, new, same⟩

/-- **When a number comes back.** A number that was given to a key is later under another key
exactly when another key is registered, when it has no registration, at a moment at which the number
is the next. -/
theorem number_comes_back_iff (ops : List Operation) (h : (after ops {}).Registers f op key now id)
    (later : List Operation) :
    (∃ m, m <+: later ∧ ∃ g ∈ (after (ops ++ op :: m) {}).seats f, g.id = id ∧ g.key ≠ key) ↔
      ∃ m op' rest key' now' id', later = m ++ op' :: rest ∧ key' ≠ key ∧
        (after (ops ++ op :: m) {}).Registers f op' key' now' id' ∧
        (∀ g ∈ (after (ops ++ op :: m) {}).seats f, g.key ≠ key') ∧
        (after (ops ++ op :: m) {}).IsNext f id := by
  have sound := isSound_after ops
  have pos := h.pos sound
  have from_ (m : List Operation) : after (ops ++ op :: m) {} = (op.apply (after ops {})).after m :=
    after_append ops (op :: m) {}
  have next_iff (m : List Operation) :
      nextId ((after (ops ++ op :: m) {}).registrationIds f) = id ↔
        (after (ops ++ op :: m) {}).IsNext f id :=
    nextId_eq_iff ((isSound_after _).pos_ids f) pos
  constructor
  · rintro ⟨m, ⟨rest, rfl⟩, g, there, number, other⟩
    have own : ∀ g ∈ (op.apply (after ops {})).seats f, g.id = id → g.key = key := by
      intro g here same
      obtain ⟨g', there, rfl, rfl⟩ := h.exists_seat
      rw [List.inj_on_of_nodup_map ((sound.apply op).nodup_ids f) here there same]
    rw [from_] at there
    obtain ⟨m', op', rest', key', now', rfl, strange, registers, new, next⟩ :=
      exists_registers_next (sound.apply op).sessions.here own there number other
    rw [← from_] at registers new next
    refine ⟨m', op', rest' ++ rest, key', now', id, ?_, strange, registers, new, ?_⟩
    · rw [List.append_assoc, List.cons_append]
    · exact (next_iff m').mp next
  · rintro ⟨m, op', rest, key', now', id', rfl, strange, registers, new, next⟩
    obtain ⟨g, there, rfl, rfl⟩ := registers.exists_seat
    refine ⟨m ++ [op'], ⟨rest, by simp⟩, g, ?_, ?_, strange⟩
    · rwa [← List.cons_append, ← List.append_assoc, after_concat]
    · exact (registers.eq_nextId new).trans ((next_iff m).mpr next)

/-! ### A registration that gets another's records -/

/-- Another listener. -/
def chime : Registration ListenerInfo where
  key := ⟨"home", 1, "chime", ""⟩
  info := default

/-- A sweep, after which another listener comes, and then a record of the first listener. -/
def removal : List Operation :=
  [.sweep (fun _ ↦ 0) ⟨9000⟩ ⟨0⟩ 0, .upsertListener chime ⟨10000⟩, .begin ⟨10000⟩,
    .insert {} [⟨⟨.listener, 1⟩, 1, ⟨12000⟩, ⟨0⟩, .success, none, none, none⟩]]

theorem after_removal :
    after (.upsertListener doorbell ⟨0⟩ :: removal) {} =
      (((({} : Store).upsertListener doorbell ⟨0⟩).2.expire 9).prune 9).after removal.tail := by
  rw [removal, after_cons, after_cons, apply_sweep_of_le rfl (Nat.le_refl 0)]
  rfl

/-- The doorbell has left, and its record counts for the chime. -/
theorem doorbell_rings_at_the_neighbours :
    (({} : Store).upsertListener doorbell ⟨0⟩).1 = 1 ∧ chime.key ≠ doorbell.key ∧
      (after (.upsertListener doorbell ⟨0⟩ :: removal) {}).seats .listener = [⟨1, chime.key, 10⟩] ∧
      (after (.upsertListener doorbell ⟨0⟩ :: removal) {}).listeners.records.map (·.registration) =
        [1] := by
  rw [after_removal]
  decide

/-- Its number was the next when the chime came. -/
theorem chime_takes_the_number :
    ∃ m op rest key now id, removal = m ++ op :: rest ∧ key ≠ doorbell.key ∧
      (after (.upsertListener doorbell ⟨0⟩ :: m) {}).Registers .listener op key now id ∧
      (∀ g ∈ (after (.upsertListener doorbell ⟨0⟩ :: m) {}).seats .listener, g.key ≠ key) ∧
      (after (.upsertListener doorbell ⟨0⟩ :: m) {}).IsNext .listener 1 := by
  refine (number_comes_back_iff [] (.listener doorbell ⟨0⟩) removal).mp
    ⟨removal, List.prefix_rfl, ⟨1, chime.key, 10⟩, ?_, rfl, by decide⟩
  rw [List.nil_append, after_removal]
  decide

end Supervision.Store
