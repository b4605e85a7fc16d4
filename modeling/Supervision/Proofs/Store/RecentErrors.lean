import Supervision.Proofs.Store.Chronology
import Supervision.Proofs.Store.Readable

/-!
# The latest failures

The records of both families that failed are told latest first, as many as are asked for
(`LatestFirst`). Numbers of records are unique within a family only, so a failure is known by its
family and its number, and records of the two families can share one place in time.

Each failure is told with the registration of its own family (`Tells`). That it has one rests on
every record being owned (`Shelf.IsSound.owned`): without its registration a failure would be passed
over in silence (`Shelf.IsSound.map_record_failed`).

* `recent_errors_are_the_latest` — for every limit and every store that came about by operations.
-/

namespace Supervision.Store

/-- The failed records of both families, each with its family. -/
def failedRecords (s : Store) : List (Family × RecordRow) :=
  ((s.records .listener).filter (·.status == "error")).map (.listener, ·) ++
    ((s.records .job).filter (·.status == "error")).map (.job, ·)

/-- Of the failed records, those that are `chosen` are the latest ones, in the order of time and
`limit` of them, or all if there are fewer; the `rest` is left out. -/
structure LatestFirst (limit : Nat) (s : Store) (chosen rest : List (Family × RecordRow)) :
    Prop where
  parts : (chosen ++ rest).Perm s.failedRecords
  length : chosen.length = min limit s.failedRecords.length
  /-- No record is chosen twice. -/
  distinct : (chosen.map fun c ↦ (c.1, c.2.id)).Nodup
  ordered : chosen.Pairwise fun a b ↦ b.2.place ≤ a.2.place
  latest : ∀ c ∈ chosen, ∀ r ∈ rest, r.2.place ≤ c.2.place

/-- What is told of a failed record: the registration of its family that it belongs to, and what
happened when. -/
def Tells (s : Store) (c : Family × RecordRow) (e : RecentError) : Prop :=
  ∃ g ∈ s.seats c.1, g.id = c.2.registration ∧
    e = ⟨⟨c.1, g.id⟩, g.key, .ofMicros c.2.startedAt, c.2.errorType, c.2.errorMessage⟩

/-! ### Failures and their records -/

variable {α : Type} {sh : Shelf α} {known : List Int} {f : Family} {s : Store} {x : Failed}

/-- The record of a failure with its family. -/
def Failed.record (x : Failed) : Family × RecordRow := (x.target.family, x.row)

/-- A failure names the registration that its record belongs to. -/
theorem Shelf.exists_of_mem_failed (mem : x ∈ sh.failed f) :
    x.row ∈ sh.records ∧ ∃ g ∈ sh.seats, g.id = x.row.registration ∧ x.target = ⟨f, g.id⟩ ∧
      x.key = g.key := by
  obtain ⟨r, there, made⟩ := List.mem_filterMap.mp mem
  split at made
  · obtain ⟨g, found, rfl⟩ := Option.map_eq_some_iff.mp made
    have own := List.find?_some found
    exact ⟨there, g.seat, List.mem_map_of_mem (List.mem_of_find?_eq_some found),
      beq_iff_eq.mp own, rfl, rfl⟩
  · cases made

/-- Where every record has a registration, every failed record is among the failures. -/
theorem Shelf.IsSound.map_record_failed (h : sh.IsSound known) (f : Family) :
    (sh.failed f).map (·.record) = (sh.records.filter (·.status == "error")).map (f, ·) := by
  rw [Shelf.failed, List.map_filterMap, ← List.filterMap_eq_map, List.filterMap_filter]
  refine List.filterMap_congr fun r mem ↦ ?_
  obtain ⟨g, there, own⟩ := List.mem_map.mp (h.owned r mem)
  have owned : (sh.registrations.find? (·.id == r.registration)).isSome :=
    List.find?_isSome.mpr ⟨g, there, beq_iff_eq.mpr own⟩
  obtain ⟨g', found⟩ := Option.isSome_iff_exists.mp owned
  rw [found, RecordStatus.name]
  split <;> rfl

/-- A failure is read back as it is. -/
theorem Failed.decode_eq (key : HasInstance x.key)
    (moment : Stamp.isMicros x.row.startedAt = true) :
    x.decode = .ok ⟨x.target, x.key, .ofMicros x.row.startedAt, x.row.errorType,
      x.row.errorMessage⟩ := by
  rw [Failed.decode, decodeKey_of_hasInstance key, moment_of_isMicros moment]
  rfl

/-! ### Failures of a store -/

/-- A failure comes from a record of one of the families. -/
theorem exists_of_mem_failures (mem : x ∈ s.failures) :
    ∃ f, x.row ∈ s.records f ∧ ∃ g ∈ s.seats f, g.id = x.row.registration ∧ x.target = ⟨f, g.id⟩ ∧
      x.key = g.key := by
  rcases List.mem_append.mp ((List.mergeSort_perm _ _).subset mem) with mem | mem
  · exact ⟨.listener, Shelf.exists_of_mem_failed mem⟩
  · exact ⟨.job, Shelf.exists_of_mem_failed mem⟩

/-- A failure of a store that can be read is told. -/
theorem IsReadable.exists_told (h : s.IsReadable) (mem : x ∈ s.failures) :
    ∃ e, x.decode = .ok e ∧ s.Tells x.record e := by
  obtain ⟨f, there, g, seat, own, target, key⟩ := exists_of_mem_failures mem
  have typed : HasInstance x.key := key ▸ h.keys f g seat
  refine ⟨_, Failed.decode_eq typed (h.moments f x.row there), g, ?_, own, ?_⟩
  · rw [Failed.record, target]
    exact seat
  · rw [Failed.record, target, key]

theorem IsSound.map_record_failures (h : s.IsSound) :
    (s.failures.map (·.record)).Perm s.failedRecords := by
  rw [failedRecords]
  refine ((List.mergeSort_perm _ _).map _).trans (List.Perm.of_eq ?_)
  rw [List.map_append, h.listeners.map_record_failed, h.jobs.map_record_failed]
  rfl

/-- Failed records are known by their families and numbers. -/
theorem IsSound.nodup_failedRecords (h : s.IsSound) :
    (s.failedRecords.map fun c ↦ (c.1, c.2.id)).Nodup := by
  have own {f : Family} {rs : List RecordRow} (keys : (rs.map (·.id)).Nodup) :
      (((rs.filter (·.status == "error")).map (f, ·)).map fun c ↦ (c.1, c.2.id)).Nodup := by
    refine List.Nodup.of_map Prod.snd ?_
    rw [List.map_map, List.map_map]
    exact keys.sublist (List.filter_sublist.map _)
  rw [failedRecords, List.map_append, List.nodup_append]
  refine ⟨own h.listeners.records, own h.jobs.records, fun a here b there same ↦ ?_⟩
  rw [List.map_map] at here there
  obtain ⟨r, -, rfl⟩ := List.mem_map.mp here
  obtain ⟨r', -, rfl⟩ := List.mem_map.mp there
  cases same

theorem pairwise_failures (s : Store) :
    s.failures.Pairwise fun a b ↦ b.row.place ≤ a.row.place :=
  pairwise_mergeSort_of_key (fun x : Failed ↦ OrderDual.toDual x.row.place)
    (fun _ _ ↦ RecordRow.later_iff) _

/-- The first failures are the latest. -/
theorem IsSound.latestFirst (h : s.IsSound) (limit : Nat) :
    LatestFirst limit s ((s.failures.take limit).map (·.record))
      ((s.failures.drop limit).map (·.record)) := by
  have whole : (s.failures.take limit).map (·.record) ++ (s.failures.drop limit).map (·.record) =
      s.failures.map (·.record) := by
    rw [← List.map_append, List.take_append_drop]
  have perm := h.map_record_failures
  have order : (s.failures.take limit ++ s.failures.drop limit).Pairwise
      fun a b ↦ b.row.place ≤ a.row.place := by
    rw [List.take_append_drop]
    exact s.pairwise_failures
  obtain ⟨ordered, -, latest⟩ := List.pairwise_append.mp order
  exact
    { parts := whole ▸ perm
      length := by rw [List.length_map, List.length_take, ← perm.length_eq, List.length_map]
      distinct := by
        refine ((perm.map _).nodup_iff.mpr h.nodup_failedRecords).sublist (List.Sublist.map _ ?_)
        exact (List.take_sublist limit _).map _
      ordered := List.pairwise_map.mpr ordered
      latest := List.forall_mem_map.mpr fun a here ↦ List.forall_mem_map.mpr fun b there ↦
        latest a here b there }

/-- **The latest failures are told.** In a store that came about by operations, for every limit, as
many failed records as it allows are chosen, or all of them if there are fewer: the latest of both
families, in the order of time. Each is told with the registration of its family that it belongs
to. -/
theorem recent_errors_are_the_latest {ops : List Operation} (typed : ∀ op ∈ ops, op.IsTyped)
    (limit : Nat) :
    let s := after ops {}
    ∃ es chosen rest, s.recentErrors limit = .ok es ∧ LatestFirst limit s chosen rest ∧
      List.Forall₂ s.Tells chosen es := by
  intro s
  have readable := isReadable_after typed
  obtain ⟨es, given, told⟩ := exists_mapM_ok (s.failures.take limit) fun x mem ↦
    readable.exists_told (List.mem_of_mem_take mem)
  exact ⟨es, _, _, given, (isSound_after ops).latestFirst limit,
    List.forall₂_map_left_iff.mpr told⟩

/-- The two late misses are told, that of the doorbell first because its record has the larger
number; the earlier one is left out. -/
theorem late_misses_are_told :
    let s := after night {}
    (∀ op ∈ night, op.IsTyped) ∧ ∃ es chosen rest, s.recentErrors 2 = .ok es ∧
      es = [⟨⟨.listener, 1⟩, doorbell.key, ⟨9000⟩, some "Missed", none⟩,
        ⟨⟨.job, 1⟩, alarm.key, ⟨9000⟩, some "Missed", none⟩] ∧
      LatestFirst 2 s chosen rest ∧ List.Forall₂ s.Tells chosen es := by
  intro s
  have typed : ∀ op ∈ night, op.IsTyped := by decide
  obtain ⟨es, chosen, rest, given, latest, told⟩ := recent_errors_are_the_latest typed 2
  have sorted : failures (after night {}) = s.listeners.failed .listener ++ s.jobs.failed .job :=
    List.mergeSort_of_pairwise (by decide)
  refine ⟨typed, es, chosen, rest, given, ?_, latest, told⟩
  rw [recentErrors, sorted] at given
  exact (Except.ok.inj given).symm

end Supervision.Store
