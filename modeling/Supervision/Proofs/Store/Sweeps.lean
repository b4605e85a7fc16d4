import Mathlib.Logic.Function.Iterate
import Mathlib.Order.Bounds.Defs
import Supervision.Proofs.Store.Batches
import Supervision.Proofs.Store.Chronology

/-!
# What a sweep removes

A sweep works on the records of each family alone. What one round of eviction leaves is said without
sorting: records are gone that are older than all that stay, as many as the round removes
(`LosesOldest`). Rounds add up (`LosesOldest.trans`), and what is left is determined
(`LosesOldest.eq_withoutOldest`), so after `k` rounds just the records are left that at least
`500 * k` records are older than (`iterate_evict`).

The rounds end because each removes a record as long as there is one (`exists_rounds`). How many
bytes are in use after a round is not up to the store, so nothing is assumed of it.

Numbers of records are taken to be unique within their family, as the keys of a table are.

* `sweep_goes_by_its_rules` — the result and the report of a sweep, for every horizon, every limit
  and every measure of the bytes in use.
-/

namespace Supervision.Store

/-! ### The oldest records -/

section Oldest

variable {m n : Nat} {rs kept rest : List RecordRow}

/-- `kept` is what is left of the records when the `n` oldest are gone, or all if there are
fewer. -/
structure LosesOldest (n : Nat) (rs kept : List RecordRow) : Prop where
  sublist : kept.Sublist rs
  /-- What is gone is older than what is left. -/
  gone : ∃ gone : List RecordRow, (gone ++ kept).Perm rs ∧ gone.length = min n rs.length ∧
    ∀ x ∈ gone, ∀ r ∈ kept, x.place < r.place

/-- The records without the `n` oldest: those that at least `n` records are older than. -/
def withoutOldest (n : Nat) (rs : List RecordRow) : List RecordRow :=
  rs.filter fun r ↦ n ≤ rs.countP (·.place < r.place)

theorem LosesOldest.length (h : LosesOldest n rs kept) : kept.length = rs.length - n := by
  obtain ⟨gone, perm, count, -⟩ := h.gone
  have total := perm.length_eq
  rw [List.length_append] at total
  omega

theorem LosesOldest.trans (h : LosesOldest m rs kept) (h' : LosesOldest n kept rest) :
    LosesOldest (m + n) rs rest := by
  obtain ⟨gone, perm, count, older⟩ := h.gone
  obtain ⟨gone', perm', count', older'⟩ := h'.gone
  refine ⟨h'.sublist.trans h.sublist, gone ++ gone', ?_, ?_, fun x mem r left ↦ ?_⟩
  · rw [List.append_assoc]
    exact (perm'.append_left gone).trans perm
  · have total := h.length
    rw [List.length_append]
    omega
  · rcases List.mem_append.mp mem with first | later
    · exact older x first r (h'.sublist.subset left)
    · exact older' x later r left

/-- Only one list is left when the `n` oldest records are gone. -/
theorem LosesOldest.eq_withoutOldest (h : LosesOldest n rs kept) : kept = withoutOldest n rs := by
  obtain ⟨gone, perm, count, older⟩ := h.gone
  have total := perm.length_eq
  rw [List.length_append] at total
  -- How many are older than a record, counted among those that are gone and those that are left.
  have rank (r : RecordRow) : rs.countP (·.place < r.place) =
      gone.countP (·.place < r.place) + kept.countP (·.place < r.place) := by
    rw [← perm.countP_eq, List.countP_append]
  have stays : ∀ r ∈ kept, decide (n ≤ rs.countP (·.place < r.place)) = true := by
    intro r left
    have all : gone.countP (·.place < r.place) = gone.length :=
      List.countP_eq_length.mpr fun x mem ↦ decide_eq_true (older x mem r left)
    have some := List.length_pos_of_mem left
    rw [decide_eq_true_iff, rank, all]
    omega
  have goes : ∀ x ∈ gone, ¬ decide (n ≤ rs.countP (·.place < x.place)) = true := by
    intro x mem
    have none : kept.countP (·.place < x.place) = 0 :=
      List.countP_eq_zero.mpr fun r left younger ↦
        lt_asymm (older x mem r left) (of_decide_eq_true younger)
    have fewer : gone.countP (·.place < x.place) < gone.length := by
      refine lt_of_le_of_ne List.countP_le_length fun all ↦ ?_
      exact lt_irrefl _ (of_decide_eq_true (List.countP_eq_length.mp all x mem))
    rw [decide_eq_true_iff, rank, none]
    omega
  -- Both are sublists of the records, one within the other and as long.
  have within : kept.Sublist (withoutOldest n rs) :=
    List.filter_eq_self.mpr stays ▸ h.sublist.filter _
  refine within.eq_of_length ?_
  rw [withoutOldest, ← (perm.filter _).length_eq, List.filter_append,
    List.filter_eq_nil_iff.mpr goes, List.filter_eq_self.mpr stays, List.nil_append]

/-- The oldest records are found by sorting and removed by their numbers. -/
theorem losesOldest_filter (keys : (rs.map (·.id)).Nodup) (n : Nat) :
    LosesOldest n rs (rs.filter fun r ↦ !(oldest n rs).contains r.id) := by
  have perm := List.mergeSort_perm rs RecordRow.older
  have order := pairwise_mergeSort_of_key RecordRow.place (fun _ _ ↦ RecordRow.older_iff) rs
  rw [← (perm.map (·.id)).nodup_iff] at keys
  rw [oldest]
  generalize rs.mergeSort RecordRow.older = sorted at perm order keys
  rw [← List.take_append_drop n sorted] at perm order keys
  have length : (sorted.take n).length = min n rs.length := by
    rw [List.length_take, ← perm.length_eq, List.take_append_drop]
  generalize sorted.take n = gone at *
  generalize sorted.drop n = left at *
  rw [List.map_append, List.nodup_append] at keys
  have other : ∀ x ∈ gone, ∀ r ∈ left, x.id ≠ r.id := fun x mem r there ↦
    keys.2.2 x.id (List.mem_map_of_mem mem) r.id (List.mem_map_of_mem there)
  have goes : ∀ x ∈ gone, ¬ (!(gone.map (·.id)).contains x.id) = true := by
    intro x mem
    rw [List.contains_iff_mem.mpr (List.mem_map_of_mem mem)]
    exact Bool.false_ne_true
  have stays : ∀ r ∈ left, (!(gone.map (·.id)).contains r.id) = true := by
    intro r there
    rw [Bool.not_eq_true', Bool.eq_false_iff]
    intro found
    obtain ⟨x, mem, same⟩ := List.mem_map.mp (List.contains_iff_mem.mp found)
    exact other x mem r there same
  have rest : (rs.filter fun r ↦ !(gone.map (·.id)).contains r.id).Perm left := by
    refine (perm.symm.filter _).trans ?_
    rw [List.filter_append, List.filter_eq_nil_iff.mpr goes, List.filter_eq_self.mpr stays,
      List.nil_append]
  refine ⟨List.filter_sublist, gone, (rest.append_left gone).trans perm, length,
    fun x mem r kept ↦ ?_⟩
  have there := rest.subset kept
  refine lt_of_le_of_ne ((List.pairwise_append.mp order).2.2 x mem r there) fun same ↦ ?_
  exact other x mem r there (RecordRow.place_eq_iff.mp same).2

theorem losesOldest_withoutOldest (keys : (rs.map (·.id)).Nodup) (n : Nat) :
    LosesOldest n rs (withoutOldest n rs) :=
  (losesOldest_filter keys n).eq_withoutOldest ▸ losesOldest_filter keys n

/-- What is left when the oldest go, and then the oldest of the others. -/
theorem withoutOldest_withoutOldest (keys : (rs.map (·.id)).Nodup) (m n : Nat) :
    withoutOldest n (withoutOldest m rs) = withoutOldest (m + n) rs := by
  have first := losesOldest_withoutOldest keys m
  have keys' := keys.sublist (first.sublist.map (·.id))
  exact (first.trans (losesOldest_withoutOldest keys' n)).eq_withoutOldest

theorem withoutOldest_zero (rs : List RecordRow) : withoutOldest 0 rs = rs :=
  List.filter_eq_self.mpr fun _ _ ↦ decide_eq_true (Nat.zero_le _)

end Oldest

/-! ### Rounds of eviction -/

/-- The store with the records of each family changed. -/
def mapRecords (change : List RecordRow → List RecordRow) (s : Store) : Store :=
  { s with
    listeners := { s.listeners with records := change s.listeners.records }
    jobs := { s.jobs with records := change s.jobs.records } }

/-- Numbers of records are unique within their family. -/
def IsKeyed (s : Store) : Prop := ∀ f, ((s.records f).map (·.id)).Nodup

variable {s : Store}

theorem IsSound.isKeyed (h : s.IsSound) : s.IsKeyed
  | .listener => h.listeners.records
  | .job => h.jobs.records

@[simp] theorem records_mapRecords (change : List RecordRow → List RecordRow) (s : Store)
    (f : Family) : (s.mapRecords change).records f = change (s.records f) := by
  cases f <;> rfl

theorem mapRecords_mapRecords (change change' : List RecordRow → List RecordRow) (s : Store) :
    (s.mapRecords change).mapRecords change' = s.mapRecords (change' ∘ change) := rfl

theorem mapRecords_congr {g g' : List RecordRow → List RecordRow}
    (same : ∀ f, g (s.records f) = g' (s.records f)) :
    s.mapRecords g = s.mapRecords g' := by
  have listeners : g s.listeners.records = g' s.listeners.records := same .listener
  have jobs : g s.jobs.records = g' s.jobs.records := same .job
  rw [mapRecords, mapRecords, listeners, jobs]

theorem expire_eq (h : Int) (s : Store) :
    s.expire h = s.mapRecords (·.filter (h ≤ ·.startedAt)) := by
  refine mapRecords_congr (g := (·.filter fun r ↦ !decide (r.startedAt < h))) fun f ↦ ?_
  refine List.filter_congr fun r _ ↦ ?_
  rw [← decide_not]
  exact decide_eq_decide.mpr Int.not_lt

theorem recordCount_eq (s : Store) :
    s.recordCount = (s.records .listener).length + (s.records .job).length := rfl

namespace IsKeyed

theorem mapRecords (keyed : s.IsKeyed) {change : List RecordRow → List RecordRow}
    (fewer : ∀ f, (change (s.records f)).Sublist (s.records f)) :
    (s.mapRecords change).IsKeyed := fun f ↦ by
  rw [records_mapRecords]
  exact (keyed f).sublist ((fewer f).map _)

/-- One round of eviction. -/
theorem evict_eq (keyed : s.IsKeyed) : s.evict = s.mapRecords (withoutOldest evictionBatch) :=
  mapRecords_congr (g := fun rs ↦ rs.filter fun r ↦ !(oldest evictionBatch rs).contains r.id)
    fun f ↦ (losesOldest_filter (keyed f) evictionBatch).eq_withoutOldest

/-- **What is left after `k` rounds of eviction.** -/
theorem iterate_evict (keyed : s.IsKeyed) (k : Nat) :
    Store.evict^[k] s = s.mapRecords (withoutOldest (evictionBatch * k)) := by
  induction k with
  | zero => exact mapRecords_congr (g := id) fun f ↦ (withoutOldest_zero _).symm
  | succ k ih =>
    have fewer (f : Family) :=
      (losesOldest_withoutOldest (keyed f) (evictionBatch * k)).sublist
    rw [Function.iterate_succ_apply', ih, (keyed.mapRecords fewer).evict_eq, mapRecords_mapRecords]
    exact mapRecords_congr fun f ↦ withoutOldest_withoutOldest (keyed f) _ _

theorem evict (keyed : s.IsKeyed) : s.evict.IsKeyed := by
  rw [keyed.evict_eq]
  exact keyed.mapRecords fun f ↦ (losesOldest_withoutOldest (keyed f) _).sublist

/-- A round removes a record, as long as there is one. -/
theorem recordCount_evict_lt (keyed : s.IsKeyed) (some : s.recordCount ≠ 0) :
    s.evict.recordCount < s.recordCount := by
  have listeners := (losesOldest_withoutOldest (keyed .listener) evictionBatch).length
  have jobs := (losesOldest_withoutOldest (keyed .job) evictionBatch).length
  rw [recordCount_eq] at some
  rw [keyed.evict_eq, recordCount_eq, recordCount_eq, records_mapRecords, records_mapRecords,
    listeners, jobs, evictionBatch]
  omega

/-- **Rounds of eviction end**, and they end with the first that leaves room enough or nothing at
all. -/
theorem exists_rounds (keyed : s.IsKeyed) (used : Store → Nat) (limit : Nat) :
    ∃ k, s.makeRoom used limit = Store.evict^[k] s ∧
      IsLeast {k | used (Store.evict^[k] s) ≤ limit ∨ (Store.evict^[k] s).recordCount = 0} k := by
  fun_induction makeRoom used limit s with
  | case1 s full fewer ih =>
    obtain ⟨k, last, enough, first⟩ := ih keyed.evict
    refine ⟨k + 1, last, enough, fun j enough ↦ ?_⟩
    cases j with
    | zero =>
      rcases enough with room | empty
      · exact absurd room (Nat.not_le.mpr full)
      · exact absurd (empty ▸ fewer) (Nat.not_lt_zero _)
    | succ j => exact Nat.succ_le_succ (first enough)
  | case2 s full same =>
    have empty : s.recordCount = 0 := of_not_not (mt keyed.recordCount_evict_lt same)
    exact ⟨0, rfl, .inr empty, fun _ _ ↦ Nat.zero_le _⟩
  | case3 s room => exact ⟨0, rfl, .inl (Nat.not_lt.mp room), fun _ _ ↦ Nat.zero_le _⟩

end IsKeyed

/-! ### The whole sweep -/

/-- The horizon is the moment before which records are too old, in whole microseconds, and 0 if the
calendar has no such moment. -/
theorem horizon_eq {now : Stamp} (real : now.inRange = true) (retention : Span) :
    horizon now retention =
      if (⟨now.nanos - retention.nanos⟩ : Stamp).inRange then
        (now.nanos - retention.nanos).fdiv 1000
      else 0 := by
  rw [horizon, Stamp.before?]
  by_cases there : (⟨now.nanos - retention.nanos⟩ : Stamp).inRange = true
  · -- A step from one moment of the calendar to another is not too large to be taken.
    have step : retention.nanos ≤ Stamp.maxStep := by
      rw [Stamp.inRange, Bool.and_eq_true, decide_eq_true_iff, decide_eq_true_iff] at there real
      have size : Stamp.maxStep = 9223372036854775807000000 := by decide
      rw [Stamp.minSeconds, Stamp.endSeconds] at there real
      dsimp only at there
      rw [size]
      omega
    rw [there, decide_eq_true step, Bool.true_and, if_pos rfl, if_pos rfl]
    rfl
  · rw [Bool.eq_false_iff.mpr there, Bool.and_false, if_neg Bool.false_ne_true,
      if_neg Bool.false_ne_true]

/-- What is left of the records when those that began before `h` are gone, and then, in `k` rounds,
the `500` oldest of each family. -/
def leftAfter (h : Int) (k : Nat) (s : Store) : Store :=
  s.mapRecords fun rs ↦ withoutOldest (500 * k) (rs.filter (h ≤ ·.startedAt))

/-- What a sweep with horizon `h` and `k` rounds of eviction makes of a store, and what it
reports. -/
structure IsSwept (h : Int) (k : Nat) (s : Store) (report : SweepReport) (s' : Store) : Prop where
  sessions : SameSessions s s'
  records : ∀ f, s'.records f = withoutOldest (500 * k) ((s.records f).filter (h ≤ ·.startedAt))
  /-- No record that was evicted is younger than one that is left. -/
  oldest : ∀ f, LosesOldest (500 * k) ((s.records f).filter (h ≤ ·.startedAt)) (s'.records f)
  listeners : s'.listeners.registrations = s.listeners.registrations.filter fun g ↦
    h ≤ g.lastRegisteredAt ∨ ∃ r ∈ s'.listeners.records, r.registration = g.id
  jobs : s'.jobs.registrations = s.jobs.registrations.filter fun g ↦
    h ≤ g.lastRegisteredAt ∨ ∃ r ∈ s'.jobs.records, r.registration = g.id
  /-- A record that is left has not lost its registration. -/
  anchored : ∀ f, ∀ r ∈ s'.records f,
    r.registration ∈ s.registrationIds f → r.registration ∈ s'.registrationIds f
  expired : report.expired = (s.records .listener).countP (·.startedAt < h) +
    (s.records .job).countP (·.startedAt < h)
  evicted : report.expired + report.evicted + s'.recordCount = s.recordCount
  registrations : report.registrations + s'.registrationCount = s.registrationCount

section Prune

variable {α : Type} (h : Int) (sh : Shelf α)

theorem Shelf.registrations_prune :
    (sh.prune h).registrations = sh.registrations.filter fun g ↦
      h ≤ g.lastRegisteredAt ∨ ∃ r ∈ sh.records, r.registration = g.id := by
  refine List.filter_congr fun g _ ↦ ?_
  rw [Bool.eq_iff_iff, Bool.not_eq_true', Bool.eq_false_iff, ne_eq, Bool.and_eq_true,
    decide_eq_true_iff, Bool.not_eq_true', Bool.eq_false_iff, ne_eq, List.any_eq_true,
    decide_eq_true_iff]
  simp only [beq_iff_eq]
  rw [not_and_or, not_not, Int.not_lt]

theorem Shelf.length_registrations_prune_le :
    (sh.prune h).registrations.length ≤ sh.registrations.length := List.length_filter_le _ _

/-- A registration that has records stays. -/
theorem Shelf.mem_ids_prune {r : RecordRow} (there : r ∈ sh.records)
    (owned : r.registration ∈ sh.registrations.map (·.id)) :
    r.registration ∈ (sh.prune h).registrations.map (·.id) := by
  obtain ⟨g, mem, same⟩ := List.mem_map.mp owned
  rw [Shelf.registrations_prune]
  exact List.mem_map.mpr ⟨g, List.mem_filter.mpr ⟨mem, decide_eq_true (.inr ⟨r, there, same.symm⟩)⟩,
    same⟩

end Prune

theorem length_filter_add_countP (h : Int) (rs : List RecordRow) :
    (rs.filter (h ≤ ·.startedAt)).length + rs.countP (·.startedAt < h) = rs.length := by
  rw [← List.countP_eq_length_filter, List.length_eq_countP_add_countP (h ≤ ·.startedAt)]
  congr 1
  refine List.countP_congr fun r _ ↦ ?_
  rw [decide_eq_true_iff, decide_eq_true_iff, decide_eq_true_iff, Int.not_le]

namespace IsKeyed

theorem filter_records (keyed : s.IsKeyed) (h : Int) (f : Family) :
    (((s.records f).filter (h ≤ ·.startedAt)).map (·.id)).Nodup :=
  (keyed f).sublist (List.filter_sublist.map _)

theorem iterate_evict_expire (keyed : s.IsKeyed) (h : Int) (k : Nat) :
    Store.evict^[k] (s.expire h) = s.leftAfter h k := by
  have still : (s.expire h).IsKeyed := expire_eq h s ▸ keyed.mapRecords fun _ ↦ List.filter_sublist
  rw [still.iterate_evict, expire_eq]
  rfl

theorem losesOldest_leftAfter (keyed : s.IsKeyed) (h : Int) (k : Nat) (f : Family) :
    LosesOldest (500 * k) ((s.records f).filter (h ≤ ·.startedAt))
      ((s.leftAfter h k).records f) := by
  rw [leftAfter, records_mapRecords]
  exact losesOldest_withoutOldest (keyed.filter_records h f) (500 * k)

/-- A sweep that has removed what it should reports the differences. -/
theorem isSwept_prune (keyed : s.IsKeyed) (h : Int) (k : Nat) :
    IsSwept h k s
      { expired := s.recordCount - (s.expire h).recordCount
        evicted := (s.expire h).recordCount - (s.leftAfter h k).recordCount
        registrations :=
          (s.leftAfter h k).registrationCount - ((s.leftAfter h k).prune h).registrationCount }
      ((s.leftAfter h k).prune h) := by
  have oldest := keyed.losesOldest_leftAfter h k
  have total (f : Family) := length_filter_add_countP h (s.records f)
  have before := recordCount_eq s
  have between : (s.expire h).recordCount =
      ((s.records .listener).filter (h ≤ ·.startedAt)).length +
        ((s.records .job).filter (h ≤ ·.startedAt)).length := by
    rw [expire_eq, recordCount_eq, records_mapRecords, records_mapRecords]
  refine
    { sessions := ⟨rfl, rfl, rfl⟩
      records := fun f ↦ by cases f <;> rfl
      oldest := oldest
      listeners := (s.leftAfter h k).listeners.registrations_prune h
      jobs := (s.leftAfter h k).jobs.registrations_prune h
      anchored := fun f r there owned ↦ ?_
      expired := ?_
      evicted := ?_
      registrations := ?_ }
  · cases f with
    | listener => exact (s.leftAfter h k).listeners.mem_ids_prune h there owned
    | job => exact (s.leftAfter h k).jobs.mem_ids_prune h there owned
  · have listeners := total .listener
    have jobs := total .job
    dsimp only
    omega
  · have after : ((s.leftAfter h k).prune h).recordCount = (s.leftAfter h k).recordCount := rfl
    have here := recordCount_eq (s.leftAfter h k)
    have listeners := (oldest .listener).length
    have jobs := (oldest .job).length
    have listeners' := total .listener
    have jobs' := total .job
    dsimp only
    omega
  · have listeners := (s.leftAfter h k).listeners.length_registrations_prune_le h
    have jobs := (s.leftAfter h k).jobs.length_registrations_prune_le h
    exact Nat.sub_add_cancel (Nat.add_le_add listeners jobs)

end IsKeyed

/-- **A sweep goes by its rules, and it ends.** Let `h` be the moment that lies the time of
retention back, in whole microseconds rounded down, or 0 if the calendar has no such moment. For
every measure of the bytes in use, a sweep removes the records that began before `h`; then the `500`
oldest records of each family, round after round until for the first time there is room enough or no
record is left; and then the registrations last seen before `h` that have no records. Nothing else
changes, and it reports how much it has removed. -/
theorem sweep_goes_by_its_rules (here : s.sessionsLost = false) (keyed : s.IsKeyed) {now : Stamp}
    (real : now.inRange = true) (retention : Span) (used : Store → Nat) (limit : Nat) :
    let h : Int := if (⟨now.nanos - retention.nanos⟩ : Stamp).inRange then
      (now.nanos - retention.nanos).fdiv 1000 else 0
    ∃ k report s', s.sweep used now retention limit = (.ok report, s') ∧
      IsSwept h k s report s' ∧
      IsLeast {k | used (s.leftAfter h k) ≤ limit ∨ (s.leftAfter h k).recordCount = 0} k := by
  intro h
  have still : (s.expire h).IsKeyed := expire_eq h s ▸ keyed.mapRecords fun _ ↦ List.filter_sublist
  obtain ⟨k, last, least⟩ := still.exists_rounds used limit
  simp only [keyed.iterate_evict_expire] at last least
  refine ⟨k, _, _, ?_, keyed.isSwept_prune h k, least⟩
  rw [sweep, withSessions_of_here here, horizon_eq real]
  dsimp only
  rw [last]

/-! ### A sweep in three steps -/

/-- The doorbell rang twice. -/
def evening : Store :=
  after [.upsertListener doorbell ⟨0⟩, .begin ⟨0⟩, .insert {} [rungAt ⟨5000⟩, rungAt ⟨9000⟩]] {}

/-- One ring is too old, the other one too much, and then the doorbell has no records. -/
theorem evening_is_swept :
    evening.sessionsLost = false ∧ evening.IsKeyed ∧ (⟨9000⟩ : Stamp).inRange = true ∧
      ∃ report s', evening.sweep (·.recordCount) ⟨9000⟩ ⟨2000⟩ 0 = (.ok report, s') ∧
        IsSwept 7 1 evening report s' := by
  have keyed : evening.IsKeyed := (isSound_after _).isKeyed
  have real : (⟨9000⟩ : Stamp).inRange = true := by decide
  refine ⟨rfl, keyed, real, ?_⟩
  obtain ⟨k, report, s', swept, rules, enough, least⟩ :=
    sweep_goes_by_its_rules (s := evening) rfl keyed real ⟨2000⟩ (·.recordCount) 0
  have some : k ≠ 0 := by
    rintro rfl
    exact absurd enough (by decide)
  have one : k ≤ 1 := least (by decide)
  obtain rfl : k = 1 := Nat.le_antisymm one (Nat.one_le_iff_ne_zero.mpr some)
  exact ⟨report, s', swept, rules⟩

end Supervision.Store
