import Mathlib.Data.String.Basic
import Supervision.Proofs.Store.Chronology
import Supervision.Proofs.Store.Readable

/-!
# What summaries say

A summary is made of the records of one registration. It says what counting them by status, the
largest of their moments and the one that comes last in time say (`Summary.Folds`); that the
statuses add up to the total rests on every record having one of the three
(`length_eq_countStatus`).

The summaries of a family stand for its registrations one for one (`IsOverview`), in the order of
their keys. Keys are ordered field by field (`before_iff`); as no key is there twice, no two entries
change places.

* `summaries_fold_records` — for both families, every application and every store that came about by
  operations. That summaries are given at all rests on rows being readable (`IsReadable`).
-/

namespace Supervision

/-- The fields of a key in the order in which keys are compared. -/
def RegistrationKey.fields (k : RegistrationKey) : String ×ₗ Int ×ₗ String ×ₗ String :=
  toLex (k.app, toLex (k.instanceIndex, toLex (k.name, k.topic)))

/-- Keys are compared field by field. -/
theorem RegistrationKey.before_iff {a b : RegistrationKey} :
    a.before b = true ↔ a.fields < b.fields := by
  rw [before, fields, fields, Prod.Lex.toLex_lt_toLex, Prod.Lex.toLex_lt_toLex,
    Prod.Lex.toLex_lt_toLex]
  dsimp only
  by_cases app : a.app = b.app
  · rw [if_neg (not_not.mpr app)]
    by_cases index : a.instanceIndex = b.instanceIndex
    · rw [if_neg (not_not.mpr index)]
      by_cases name : a.name = b.name
      · rw [if_neg (not_not.mpr name)]
        simp [app, index, name]
      · rw [if_pos name]
        simp [app, index, name]
    · rw [if_pos index]
      simp [app, index]
  · rw [if_pos app]
    simp [app]

theorem RegistrationKey.fields_injective {a b : RegistrationKey} (h : a.fields = b.fields) :
    a = b := by
  cases a
  cases b
  simpa [fields] using h

/-- What a summary says of the records of its registration. -/
structure Summary.Folds (rs : List Store.RecordRow) (e : Summary) : Prop where
  total : e.total = rs.length
  successes : e.successes = rs.countP (·.status == "success")
  errors : e.errors = rs.countP (·.status == "error")
  cancelled : e.cancelled = rs.countP (·.status == "cancelled")
  adds : e.total = e.successes + e.errors + e.cancelled
  lastRunAt : e.lastRunAt = (rs.map (·.startedAt)).max?.map Stamp.ofMicros
  /-- The last record in time tells how long the last run took. -/
  lastMs : ∀ r ∈ rs, (∀ x ∈ rs, x.place ≤ r.place) → e.lastMs = some r.durationMs
  idle : (e.lastRunAt = none ↔ e.total = 0) ∧ (e.lastMs = none ↔ e.total = 0)

namespace Store

/-! ### One registration -/

variable {rs : List RecordRow}

/-- Records that have a status have one of three. -/
theorem length_eq_countStatus (h : ∀ r ∈ rs, ∃ st : RecordStatus, r.status = st.name) :
    rs.length = countStatus .success rs + countStatus .error rs + countStatus .cancelled rs := by
  induction rs with
  | nil => rfl
  | cons r rs ih =>
    have rest := ih fun x mem ↦ h x (List.mem_cons_of_mem r mem)
    obtain ⟨st, status⟩ := h r List.mem_cons_self
    simp only [countStatus, List.length_cons, List.countP_cons, status] at rest ⊢
    cases st <;> simp [RecordStatus.name] at rest ⊢ <;> omega

/-- The record that is last in time, or none if there are no records. -/
def IsLatest (rs : List RecordRow) : Option RecordRow → Prop
  | none => rs = []
  | some r => r ∈ rs ∧ ∀ x ∈ rs, x.place ≤ r.place

/-- When the latest come first, the first is the latest. -/
theorem isLatest_head? (rs : List RecordRow) :
    IsLatest rs (rs.mergeSort RecordRow.later).head? := by
  have perm := List.mergeSort_perm rs RecordRow.later
  have order := pairwise_mergeSort_of_key (fun r : RecordRow ↦ OrderDual.toDual r.place)
    (fun _ _ ↦ RecordRow.later_iff) rs
  cases sorted : rs.mergeSort RecordRow.later with
  | nil =>
    rw [sorted] at perm
    exact List.nil_perm.mp perm
  | cons r rest =>
    rw [sorted] at perm order
    refine ⟨perm.subset List.mem_cons_self, fun x mem ↦ ?_⟩
    rcases List.mem_cons.mp (perm.symm.subset mem) with rfl | later
    · exact le_refl _
    · exact (List.pairwise_cons.mp order).1 x later

variable {latest : Option RecordRow}

/-- The last moment is that of the latest record. -/
theorem IsLatest.max?_eq (h : IsLatest rs latest) :
    (rs.map (·.startedAt)).max? = latest.map (·.startedAt) := by
  cases latest with
  | none =>
    obtain rfl : rs = [] := h
    rfl
  | some r =>
    refine List.max?_eq_some_iff.mpr ⟨List.mem_map_of_mem h.1, List.forall_mem_map.mpr ?_⟩
    intro x mem
    rcases RecordRow.place_le_iff.mp (h.2 x mem) with before | ⟨same, -⟩
    · exact Int.le_of_lt before
    · exact Int.le_of_eq same

/-- Where numbers are unique, there is only one latest record. -/
theorem IsLatest.eq_some (h : IsLatest rs latest) (keys : (rs.map (·.id)).Nodup) {r : RecordRow}
    (mem : r ∈ rs) (last : ∀ x ∈ rs, x.place ≤ r.place) : latest = some r := by
  cases latest with
  | none =>
    obtain rfl : rs = [] := h
    cases mem
  | some r' =>
    have same := le_antisymm (last r' h.1) (h.2 r mem)
    rw [List.inj_on_of_nodup_map keys h.1 mem (RecordRow.place_eq_iff.mp same).2]

theorem IsLatest.eq_none_iff (h : IsLatest rs latest) : latest = none ↔ rs.length = 0 := by
  rw [List.length_eq_zero_iff]
  cases latest with
  | none => exact iff_of_true rfl h
  | some r => exact iff_of_false (Option.some_ne_none r) (List.ne_nil_of_mem h.1)

/-- The moment of the latest record can be read if those of all records can. -/
theorem IsLatest.moment?_eq (h : IsLatest rs latest)
    (moments : ∀ r ∈ rs, Stamp.isMicros r.startedAt = true) (column : Nat) :
    moment? column (latest.map (·.startedAt)) =
      .ok ((latest.map (·.startedAt)).map Stamp.ofMicros) := by
  cases latest with
  | none => rfl
  | some r =>
    rw [Option.map_some, moment?, moment_of_isMicros (moments r h.1)]
    rfl

/-- **The summary of a registration says what its records say.** -/
theorem exists_summarize (target : Target) {key : RegistrationKey} (typed : HasInstance key)
    (keys : (rs.map (·.id)).Nodup) (moments : ∀ r ∈ rs, Stamp.isMicros r.startedAt = true)
    (statuses : ∀ r ∈ rs, ∃ st : RecordStatus, r.status = st.name) :
    ∃ e, summarize target key rs = .ok e ∧ (e.target, e.key) = (target, key) ∧ e.Folds rs := by
  have latest := isLatest_head? rs
  rw [summarize, decodeKey_of_hasInstance typed, latest.moment?_eq moments]
  refine ⟨_, rfl, rfl, ?_⟩
  exact
    { total := rfl
      successes := rfl
      errors := rfl
      cancelled := rfl
      adds := length_eq_countStatus statuses
      lastRunAt := by rw [latest.max?_eq]
      lastMs := fun r mem last ↦ by rw [latest.eq_some keys mem last]; rfl
      idle := ⟨by rw [Option.map_eq_none_iff, Option.map_eq_none_iff, latest.eq_none_iff],
        by rw [Option.map_eq_none_iff, latest.eq_none_iff]⟩ }

/-! ### All registrations of a family -/

namespace Shelf

variable {α : Type} {sh : Shelf α}

/-- The summaries of an application, or of all: one for each of its registrations, in the order of
their keys, and each of the records of that registration. -/
structure IsOverview (f : Family) (app : Option String) (sh : Shelf α) (es : List Summary) :
    Prop where
  entries : (es.map fun e ↦ (e.target, e.key)).Perm
    ((sh.registrations.filter fun g ↦ app.all (· == g.key.app)).map fun g ↦ (⟨f, g.id⟩, g.key))
  ordered : es.Pairwise fun a b ↦ a.key.fields < b.key.fields
  folds : ∀ e ∈ es, e.Folds (sh.recordsOf e.target.id)

theorem selected_perm (app : Option String) (sh : Shelf α) :
    (sh.selected app).Perm (sh.registrations.filter fun g ↦ app.all (· == g.key.app)) :=
  List.mergeSort_perm _ _

/-- The registrations of an application stand in the order of their keys. -/
theorem pairwise_selected (app : Option String) (keys : (sh.registrations.map (·.key)).Nodup) :
    (sh.selected app).Pairwise fun a b ↦ a.key.fields < b.key.fields := by
  have compares (a b : RegistrationRow α) :
      (!b.key.before a.key) = true ↔ a.key.fields ≤ b.key.fields := by
    rw [Bool.not_eq_true', Bool.eq_false_iff, ne_eq, RegistrationKey.before_iff, not_lt]
  have order := pairwise_mergeSort_of_key (fun g : RegistrationRow α ↦ g.key.fields) compares
    (sh.registrations.filter fun g ↦ app.all (· == g.key.app))
  have nodup : ((sh.selected app).map (·.key)).Nodup :=
    ((sh.selected_perm app).map _).nodup_iff.mpr (keys.sublist (List.filter_sublist.map _))
  refine (order.and (List.pairwise_map.mp nodup)).imp fun {a b} ⟨le, ne⟩ ↦ ?_
  exact lt_of_le_of_ne le fun same ↦ ne (RegistrationKey.fields_injective same)

variable {known : List Int}

/-- The summary of a registration is of its records on the shelf. -/
theorem IsSound.exists_entry (sound : sh.IsSound known)
    (moments : ∀ r ∈ sh.records, Stamp.isMicros r.startedAt = true)
    (statuses : ∀ r ∈ sh.records, ∃ st : RecordStatus, r.status = st.name) (f : Family)
    {g : RegistrationRow α} (typed : HasInstance g.key) :
    ∃ e, summarize ⟨f, g.id⟩ g.key (sh.recordsOf g.id) = .ok e ∧
      e.Folds (sh.recordsOf e.target.id) ∧ (e.target, e.key) = (⟨f, g.id⟩, g.key) := by
  have own {r : RecordRow} (mem : r ∈ sh.recordsOf g.id) : r ∈ sh.records :=
    (List.mem_filter.mp mem).1
  have keys : ((sh.recordsOf g.id).map (·.id)).Nodup :=
    sound.records.sublist (List.filter_sublist.map _)
  obtain ⟨e, found, same, folds⟩ := exists_summarize ⟨f, g.id⟩ typed keys
    (fun r mem ↦ moments r (own mem)) fun r mem ↦ statuses r (own mem)
  refine ⟨e, found, ?_, same⟩
  rw [(Prod.mk.inj same).1]
  exact folds

/-- **The summaries of a family say what its records say.** -/
theorem IsSound.exists_overview (sound : sh.IsSound known)
    (typed : ∀ g ∈ sh.registrations, HasInstance g.key)
    (moments : ∀ r ∈ sh.records, Stamp.isMicros r.startedAt = true)
    (statuses : ∀ r ∈ sh.records, ∃ st : RecordStatus, r.status = st.name) (f : Family)
    (app : Option String) : ∃ es, sh.summaries f app = .ok es ∧ sh.IsOverview f app es := by
  have there {g : RegistrationRow α} (mem : g ∈ sh.selected app) : g ∈ sh.registrations :=
    (List.mem_filter.mp ((sh.selected_perm app).subset mem)).1
  obtain ⟨es, all, told⟩ := exists_mapM_ok (sh.selected app) fun g mem ↦
    sound.exists_entry moments statuses f (typed g (there mem))
  obtain ⟨folds, pairs⟩ := (List.forall₂_and_left es _).mp told.flip
  have same : es.map (fun e ↦ (e.target, e.key)) =
      (sh.selected app).map fun g ↦ ((⟨f, g.id⟩ : Target), g.key) := by
    rwa [← List.forall₂_eq_eq_eq, List.forall₂_map_left_iff, List.forall₂_map_right_iff]
  have order : (es.map fun e ↦ (e.target, e.key)).Pairwise fun a b ↦ a.2.fields < b.2.fields := by
    rw [same]
    exact List.pairwise_map.mpr (pairwise_selected app sound.keys)
  rw [List.pairwise_map] at order
  refine ⟨es, all, ?_, order, folds⟩
  rw [same]
  exact (sh.selected_perm app).map _

end Shelf

/-- **Summaries say what the records say.** In a store that came about by operations, for both
families and for an application or for all, they are given, one for each registration of the family
that belongs to the application, in the order of the keys; and each says how many records the
registration has, how many of each status, when the last of them began and how long it took. -/
theorem summaries_fold_records {ops : List Operation} (typed : ∀ op ∈ ops, op.IsTyped)
    (app : Option String) :
    let s := after ops {}
    (∃ es, s.listenerSummaries app = .ok es ∧ s.listeners.IsOverview .listener app es) ∧
      ∃ es, s.jobSummaries app = .ok es ∧ s.jobs.IsOverview .job app es := by
  intro s
  have sound := isSound_after ops
  have readable := isReadable_after typed
  constructor
  · exact sound.listeners.exists_overview
      (fun g mem ↦ readable.keys .listener g.seat (List.mem_map_of_mem mem))
      (readable.moments .listener) (readable.statuses .listener) .listener app
  · exact sound.jobs.exists_overview
      (fun g mem ↦ readable.keys .job g.seat (List.mem_map_of_mem mem))
      (readable.moments .job) (readable.statuses .job) .job app

/-- The alarm failed twice, and the failure that was added last is not the latest. -/
theorem night_is_summed_up :
    (∀ op ∈ night, op.IsTyped) ∧
      ∃ e, (after night {}).jobSummaries (some "home") = .ok [e] ∧
        (e.target, e.key) = (⟨.job, 1⟩, alarm.key) ∧
        (e.total, e.successes, e.errors, e.cancelled) = (2, 0, 2, 0) ∧
        e.lastRunAt = some ⟨9000⟩ := by
  have typed : ∀ op ∈ night, op.IsTyped := by decide
  obtain ⟨-, es, given, overview⟩ := summaries_fold_records typed (some "home")
  have entries := overview.entries
  have one : ((after night {}).jobs.registrations.filter fun g ↦
      (some "home").all (· == g.key.app)).map (fun g ↦ ((⟨.job, g.id⟩ : Target), g.key)) =
      [(⟨.job, 1⟩, alarm.key)] := by decide
  rw [one, List.perm_singleton, List.map_eq_singleton_iff] at entries
  obtain ⟨e, rfl, same⟩ := entries
  have folds := overview.folds e List.mem_cons_self
  rw [(Prod.mk.inj same).1] at folds
  refine ⟨typed, e, given, same, ?_, folds.lastRunAt⟩
  rw [folds.total, folds.successes, folds.errors, folds.cancelled]
  decide

end Store

end Supervision
