import Mathlib.Data.List.Nodup
import Supervision.Store.History

/-!
# Sound shelves

A shelf is sound when no key and no number stands in it twice and every record belongs to a
registration on it and to a session that is known (`Shelf.IsSound`). Whatever is done to a shelf
keeps that: registering, because a new row takes a number that nobody has (`nextId_notMem`); adding
a record, because it takes such a number as well (`Lot.next_notMem`) and only records of known
registrations and sessions are accepted; removing records in any way at all; and removing
registrations, because only those go that have no records.

Operations that do such things over and over are opened once, as induction principles:
`insertRecordsWith_keeps` for adding records, `sweep_keeps` for a sweep.
-/

namespace Supervision.Store

/-! ### The next number -/

theorem lt_nextId {ids : List Int} {n : Int} (h : n ∈ ids) : n < nextId ids := by
  rw [nextId]
  cases top : ids.max? with
  | none => exact absurd (List.max?_eq_none_iff.mp top ▸ h) List.not_mem_nil
  | some m => exact Int.lt_add_one_of_le ((List.max?_eq_some_iff.mp top).2 n h)

theorem nextId_notMem (ids : List Int) : nextId ids ∉ ids :=
  fun h ↦ absurd (lt_nextId h) (Int.lt_irrefl _)

/-- Nobody has the number that a record gets, whether it is the next one or drawn. -/
theorem Lot.next_notMem (lot : Lot) (ids : List Int) : lot.next ids ∉ ids := by
  rw [Lot.next]
  split
  · exact nextId_notMem ids
  · exact lot.fresh ids

/-- The number that a record gets is one that a row may have. -/
theorem Lot.next_le_maxId (lot : Lot) {ids : List Int} (few : (ids.length : Int) < maxDrawn) :
    lot.next ids ≤ maxId := by
  rw [Lot.next]
  split
  · assumption
  · exact Int.le_trans (lot.inRange ids few).2 (by decide)

theorem nextId_pos {ids : List Int} (h : ∀ n ∈ ids, 0 < n) : 0 < nextId ids := by
  rw [nextId]
  cases top : ids.max? with
  | none => exact Int.one_pos
  | some m => exact Int.lt_add_one_of_le (Int.le_of_lt (h m (List.max?_mem top)))

/-- When all numbers are positive, the next one is the least that is above all of them and directly
above one of them, or the first of all. -/
theorem nextId_eq_iff {ids : List Int} (h : ∀ n ∈ ids, 0 < n) {i : Int} (hi : 0 < i) :
    nextId ids = i ↔ (∀ n ∈ ids, n < i) ∧ (1 < i → i - 1 ∈ ids) := by
  constructor
  · rintro rfl
    refine ⟨fun n mem ↦ lt_nextId mem, fun later ↦ ?_⟩
    rw [nextId] at later ⊢
    cases top : ids.max? with
    | none => rw [top] at later; exact absurd later (Int.lt_irrefl 1)
    | some m => simpa using List.max?_mem top
  · rintro ⟨above, next⟩
    rw [nextId]
    cases top : ids.max? with
    | none =>
      have empty := List.max?_eq_none_iff.mp top
      have first : ¬ 1 < i := fun later ↦ absurd (empty ▸ next later) List.not_mem_nil
      show 1 = i
      omega
    | some m =>
      obtain ⟨mem, le⟩ := List.max?_eq_some_iff.mp top
      have := above m mem
      have := h m mem
      have := le (i - 1) (next (by omega))
      show m + 1 = i
      omega

/-- A row with a new number, or a new key, is added. -/
theorem nodup_map_push {ρ β : Type} {view : ρ → β} {rows : List ρ} {row : ρ}
    (h : (rows.map view).Nodup) (new : view row ∉ rows.map view) :
    ((rows ++ [row]).map view).Nodup := by
  rw [List.map_append, List.map_singleton, ← List.concat_eq_append]
  exact h.concat new

/-! ### Shelves -/

variable {α : Type}

/-- No key and no number stands there twice, numbers are positive, and every record belongs to a
registration that is there and to a known session. -/
structure Shelf.IsSound (known : List Int) (sh : Shelf α) : Prop where
  keys : (sh.registrations.map (·.key)).Nodup
  numbers : (sh.registrations.map (·.id)).Nodup
  positive : ∀ g ∈ sh.registrations, 0 < g.id
  records : (sh.records.map (·.id)).Nodup
  owned : ∀ r ∈ sh.records, r.registration ∈ sh.registrations.map (·.id)
  within : ∀ r ∈ sh.records, r.session ∈ known

namespace Shelf

variable {known : List Int} {sh : Shelf α} {key : RegistrationKey}

theorem isSound_empty (known : List Int) : ({} : Shelf α).IsSound known :=
  ⟨.nil, .nil, List.forall_mem_nil _, .nil, List.forall_mem_nil _, List.forall_mem_nil _⟩

/-- No session that is known is forgotten. -/
theorem IsSound.mono (h : sh.IsSound known) {more : List Int} (sub : known ⊆ more) :
    sh.IsSound more :=
  { h with within := fun r mem ↦ sub (h.within r mem) }

/-! #### Registering -/

theorem find?_eq_none_iff : sh.find? key = none ↔ ∀ g ∈ sh.registrations, g.key ≠ key := by
  rw [find?, List.find?_eq_none]
  simp only [beq_iff_eq]

theorem mem_of_find? {g : RegistrationRow α} (h : sh.find? key = some g) :
    g ∈ sh.registrations ∧ g.key = key :=
  ⟨List.mem_of_find?_eq_some h, by simpa using List.find?_some h⟩

/-- What a refreshed registration is known by and its number stay, and so does the moment of its
first registration. -/
theorem map_refresh {β : Type} (view : RegistrationRow α → β) (key : RegistrationKey) (info : α)
    (now : Int) (rows : List (RegistrationRow α))
    (blind : ∀ g : RegistrationRow α,
      view { g with info := info, lastRegisteredAt := now } = view g) :
    (rows.map fun g ↦ if g.key == key then { g with info := info, lastRegisteredAt := now }
      else g).map view = rows.map view := by
  rw [List.map_map]
  refine List.map_congr_left fun g _ ↦ ?_
  rw [Function.comp_apply]
  split
  · exact blind g
  · rfl

theorem IsSound.upsert (h : sh.IsSound known) (key : RegistrationKey) (info : α) (now : Int) :
    (sh.upsert key info now).2.IsSound known := by
  rw [Shelf.upsert]
  cases found : sh.find? key with
  | some row =>
    have numbers := map_refresh (·.id) key info now sh.registrations fun _ ↦ rfl
    refine
      { keys := ?_
        numbers := numbers ▸ h.numbers
        positive := fun g mem ↦ ?_
        records := h.records
        owned := fun r mem ↦ numbers ▸ h.owned r mem
        within := h.within }
    · exact map_refresh (·.key) key info now sh.registrations (fun _ ↦ rfl) ▸ h.keys
    · obtain ⟨old, there, same⟩ := List.mem_map.mp (numbers ▸ List.mem_map_of_mem mem)
      have positive := h.positive old there
      exact same ▸ positive
  | none =>
    have new := find?_eq_none_iff.mp found
    have positive : ∀ n ∈ sh.registrations.map (·.id), 0 < n :=
      List.forall_mem_map.mpr h.positive
    refine
      { keys := ?_
        numbers := ?_
        positive := fun g mem ↦ ?_
        records := h.records
        owned := fun r mem ↦ ?_
        within := h.within }
    · refine nodup_map_push h.keys fun mem ↦ ?_
      obtain ⟨g, there, same⟩ := List.mem_map.mp mem
      exact new g there same
    · exact nodup_map_push h.numbers (nextId_notMem _)
    · rcases List.mem_append.mp mem with old | added
      · exact h.positive g old
      · rw [List.mem_singleton.mp added]
        exact nextId_pos positive
    · rw [List.map_append]
      exact List.mem_append_left _ (h.owned r mem)

/-! #### Records -/

/-- A record of a registration that is there and of a known session is added. -/
theorem IsSound.append (h : sh.IsSound known) {lot : Lot} {r : Record}
    (owner : r.target.id ∈ sh.registrations.map (·.id)) (session : r.session ∈ known) :
    (sh.append lot r).IsSound known where
  keys := h.keys
  numbers := h.numbers
  positive := h.positive
  records := nodup_map_push h.records (lot.next_notMem _)
  owned x mem := by
    rcases List.mem_append.mp mem with old | added
    · exact h.owned x old
    · rw [List.mem_singleton.mp added]
      exact owner
  within x mem := by
    rcases List.mem_append.mp mem with old | added
    · exact h.within x old
    · rw [List.mem_singleton.mp added]
      exact session

/-- Records may be removed at will. -/
theorem IsSound.filter_records (h : sh.IsSound known) (keep : RecordRow → Bool) :
    ({ sh with records := sh.records.filter keep } : Shelf α).IsSound known where
  keys := h.keys
  numbers := h.numbers
  positive := h.positive
  records := h.records.sublist (List.filter_sublist.map _)
  owned r mem := h.owned r (List.mem_filter.mp mem).1
  within r mem := h.within r (List.mem_filter.mp mem).1

/-- A registration that has records stays. -/
theorem IsSound.prune (h : sh.IsSound known) (horizon : Int) :
    (sh.prune horizon).IsSound known where
  keys := h.keys.sublist (List.filter_sublist.map _)
  numbers := h.numbers.sublist (List.filter_sublist.map _)
  positive g mem := h.positive g (List.mem_filter.mp mem).1
  records := h.records
  owned r mem := by
    obtain ⟨g, there, same⟩ := List.mem_map.mp (h.owned r mem)
    refine List.mem_map.mpr ⟨g, List.mem_filter.mpr ⟨there, ?_⟩, same⟩
    have busy : sh.records.any (·.registration == g.id) = true :=
      List.any_eq_true.mpr ⟨r, mem, beq_iff_eq.mpr same.symm⟩
    rw [busy, Bool.not_true, Bool.and_false, Bool.not_false]
  within := h.within

end Shelf

/-! ### Operations in several steps -/

section Keeps

variable {P : Store → Prop}

/-- What every added record keeps is kept by all records of a batch. -/
theorem insertFrom_keeps (append : ∀ s r, s.accepts r = true → P s → P (s.append r))
    {faults : Faults} {i written : Nat} {rs : List Record} {s : Store} (h : P s) :
    P (insertFrom faults i written s rs).2 := by
  induction rs generalizing i written s with
  | nil =>
    rw [insertFrom]
    split <;> exact h
  | cons r rs ih =>
    rw [insertFrom]
    split
    · exact h
    · split
      · exact ih (append s r ‹_› h)
      · exact ih h

/-- What holds before a transaction and at its end holds after it, whatever became of it. -/
theorem transaction_keeps {β : Type} {s : Store} {body : Store → Result β} (h : P s)
    (ends : P (body s).2) : P (s.transaction body).2 := by
  rw [transaction]
  split
  · rename_i ended
    rw [ended] at ends
    exact ends
  · exact h

theorem withSessions_keeps {β : Type} {s : Store} {gone : StoreError} {op : Store → Result β}
    (h : P s) (ends : s.sessionsLost = false → P (op s).2) : P (s.withSessions gone op).2 := by
  rw [withSessions]
  split
  · exact h
  · exact ends (Bool.eq_false_iff.mpr ‹_›)

/-- **What every added record keeps is kept when records are added.** -/
theorem insertRecordsWith_keeps (append : ∀ s r, s.accepts r = true → P s → P (s.append r))
    (faults : Faults) (rs : List Record) {s : Store} (h : P s) :
    P (s.insertRecordsWith faults rs).2 := by
  rw [insertRecordsWith]
  split
  · exact h
  · exact withSessions_keeps h fun _ ↦ transaction_keeps h (insertFrom_keeps append h)

theorem makeRoom_keeps (evict : ∀ s, P s → P s.evict) (used : Store → Nat) (limit : Nat)
    {s : Store} (h : P s) : P (s.makeRoom used limit) := by
  fun_induction makeRoom used limit s with
  | case1 s full fewer ih => exact ih (evict s h)
  | case2 s full none => exact h
  | case3 s within => exact h

/-- **What its three ways of removing rows keep is kept by a sweep.** -/
theorem sweep_keeps (expire : ∀ h s, P s → P (s.expire h)) (evict : ∀ s, P s → P s.evict)
    (prune : ∀ h s, P s → P (s.prune h)) (used : Store → Nat) (now : Stamp) (retention : Span)
    (limit : Nat) {s : Store} (h : P s) : P (s.sweep used now retention limit).2 :=
  withSessions_keeps h fun _ ↦ prune _ _ (makeRoom_keeps evict used limit (expire _ _ h))

end Keeps

/-- A sweep that finds room enough goes by age alone. -/
theorem apply_sweep_of_le {s : Store} (lost : s.sessionsLost = false) {used : Store → Nat}
    {now : Stamp} {retention : Span} {limit : Nat}
    (room : used (s.expire (horizon now retention)) ≤ limit) :
    (Operation.sweep used now retention limit).apply s =
      (s.expire (horizon now retention)).prune (horizon now retention) := by
  rw [Operation.apply, sweep, withSessions, if_neg (Bool.eq_false_iff.mp lost)]
  dsimp only
  rw [makeRoom, if_neg (Nat.not_lt.mpr room)]

end Supervision.Store
