import Mathlib.Data.Fintype.Card
import Mathlib.Data.Fintype.EquivFin
import Mathlib.Data.List.Duplicate
import Supervision.Proofs.StartOrder.Frontier
import Supervision.StartOrder.Valid

/-!
# Who waits in vain

A table in which no name stands twice and every dependency names somebody has the needs that its
declarations name (`IsTableOf`). What can never be placed are the declarations in a circle, and all
that need one of those, directly or not (`LeadsToCircle`, `mem_placed_iff`). When some are left in
the end, the one declared first is named, whether it is in a circle itself or only waits for one
(`startOrder_eq_dependencyCycle_iff`).

The converse, that nobody else is left, rests on the table being finite: needs that lead to no
circle cannot be followed for ever.
-/

namespace Supervision

namespace StartOrder

variable {rs : List Declaration} {table : List (List Nat)} {placed : List Nat} {i j k : Nat}

/-! ### The needs that declarations name -/

section Names

variable {names ds : List String} {found ns : List Nat} {d : String}

/-- Where no name stands twice, a name is found in its own place. -/
theorem idxOf?_eq_some_iff_getElem? (distinct : names.Nodup) :
    names.idxOf? d = some j ↔ names[j]? = some d := by
  constructor
  · intro h
    obtain ⟨hj, e, -⟩ := List.idxOf?_eq_some_iff.1 h
    rw [List.getElem?_eq_getElem hj, e]
  · intro h
    obtain ⟨k, hk⟩ := Option.isSome_iff_exists.1 (List.isSome_idxOf?.2 (List.mem_of_getElem? h))
    obtain ⟨lt, e, -⟩ := List.idxOf?_eq_some_iff.1 hk
    have same : names[k]? = names[j]? := by rw [h, List.getElem?_eq_getElem lt, e]
    rw [hk, (List.getElem?_inj lt distinct).1 same]

/-- What is found are the places of the names, each once. -/
theorem needs_eq_ok (h : needs names ds found = .ok ns) :
    (∀ j, j ∈ ns ↔ j ∈ found ∨ ∃ d ∈ ds, names.idxOf? d = some j) ∧
      (found.Nodup → ns.Nodup) := by
  induction ds generalizing found with
  | nil =>
    cases h
    simp
  | cons d ds ih =>
    unfold needs at h
    split at h
    · cases h
    · rename_i k hk
      obtain ⟨mem, nodup⟩ := ih h
      have first : ∀ j, (j ∈ if k ∈ found then found else k :: found) ↔ j ∈ found ∨ k = j := by
        intro j
        split
        · rename_i old
          exact ⟨.inl, fun h ↦ h.elim id fun same ↦ same ▸ old⟩
        · rw [List.mem_cons, or_comm, eq_comm]
      refine ⟨fun j ↦ ?_, fun h ↦ nodup ?_⟩
      · rw [mem, first, or_assoc, List.exists_mem_cons_iff, hk, Option.some.injEq]
      · split
        · exact h
        · exact List.nodup_cons.2 ⟨‹_›, h⟩

/-- All names that are found somebody has. -/
theorem mem_names_of_needs (h : needs names ds found = .ok ns) : ∀ d ∈ ds, d ∈ names := by
  induction ds generalizing found with
  | nil => nofun
  | cons d ds ih =>
    unfold needs at h
    split at h
    · cases h
    · rename_i k hk
      exact List.forall_mem_cons.2 ⟨List.isSome_idxOf?.1 (hk ▸ rfl), ih h⟩

/-- What is not found is a name that nobody has. -/
theorem needs_eq_error (h : needs names ds found = .error d) : d ∈ ds ∧ d ∉ names := by
  induction ds generalizing found with
  | nil => cases h
  | cons e ds ih =>
    unfold needs at h
    split at h
    · rename_i none
      cases h
      exact ⟨List.mem_cons_self, List.idxOf?_eq_none_iff.1 none⟩
    · exact (ih h).imp_left (List.mem_cons_of_mem _)

theorem allNeeds_eq_ok (h : allNeeds names rs = .ok table) :
    table.length = rs.length ∧
      ∀ i r, rs[i]? = some r → needs names r.dependsOn [] = .ok (needsOf table i) := by
  induction rs generalizing table with
  | nil =>
    cases h
    exact ⟨rfl, nofun⟩
  | cons r rs ih =>
    unfold allNeeds at h
    split at h
    · cases h
    · rename_i ns hn
      cases rest : allNeeds names rs with
      | error e =>
        rw [rest] at h
        cases h
      | ok later =>
        rw [rest] at h
        cases h
        obtain ⟨size, each⟩ := ih rest
        refine ⟨congrArg Nat.succ size, fun i q hq ↦ ?_⟩
        cases i with
        | zero =>
          cases hq
          exact hn
        | succ i => exact each i q hq

theorem allNeeds_eq_error {e : RunError} (h : allNeeds names rs = .error e) :
    ∃ r ∈ rs, ∃ d ∈ r.dependsOn, d ∉ names ∧ e = .unknownDependency r.name d := by
  induction rs with
  | nil => cases h
  | cons r rs ih =>
    unfold allNeeds at h
    split at h
    · rename_i d hd
      cases h
      obtain ⟨named, unknown⟩ := needs_eq_error hd
      exact ⟨r, List.mem_cons_self, d, named, unknown, rfl⟩
    · cases rest : allNeeds names rs with
      | error e' =>
        rw [rest] at h
        cases h
        obtain ⟨q, hq, known⟩ := ih rest
        exact ⟨q, List.mem_cons_of_mem _ hq, known⟩
      | ok later =>
        rw [rest] at h
        cases h

end Names

/-- The needs of the declarations of a table. -/
structure IsTableOf (rs : List Declaration) (table : List (List Nat)) : Prop
    extends IsTable table where
  size : table.length = rs.length
  needs : ∀ i j, j ∈ needsOf table i ↔ Needs rs i j

theorem lt_of_needs (h : Needs rs i j) : i < rs.length := by
  obtain ⟨r, -, hr, -⟩ := h
  exact (List.getElem?_eq_some_iff.1 hr).1

/-- The needs that are found are those of a table, whatever names stand twice. -/
theorem isTable_of_allNeeds (h : allNeeds (rs.map (·.name)) rs = .ok table) : IsTable table := by
  obtain ⟨size, each⟩ := allNeeds_eq_ok h
  have found : ∀ k, k < table.length →
      ∃ r : Declaration, needs (rs.map (·.name)) r.dependsOn [] = .ok (needsOf table k) :=
    fun k hk ↦ ⟨rs[k], each k _ (List.getElem?_eq_getElem (size ▸ hk))⟩
  refine ⟨fun k ↦ ?_, fun k j hj ↦ ?_⟩
  · by_cases hk : k < table.length
    · obtain ⟨r, hr⟩ := found k hk
      exact (needs_eq_ok hr).2 List.nodup_nil
    · rw [needsOf, List.getElem?_eq_none (Nat.le_of_not_lt hk)]
      exact List.nodup_nil
  · obtain ⟨r, hr⟩ := found k (lt_of_mem_needsOf hj)
    obtain ⟨d, -, hd⟩ := (((needs_eq_ok hr).1 j).1 hj).resolve_left List.not_mem_nil
    obtain ⟨lt, -⟩ := List.idxOf?_eq_some_iff.1 hd
    rw [size]
    simpa using lt

theorem isTableOf_of_allNeeds (distinct : (rs.map (·.name)).Nodup)
    (h : allNeeds (rs.map (·.name)) rs = .ok table) : IsTableOf rs table where
  toIsTable := isTable_of_allNeeds h
  size := (allNeeds_eq_ok h).1
  needs i j := by
    obtain ⟨size, each⟩ := allNeeds_eq_ok h
    by_cases hi : i < rs.length
    · have found := (needs_eq_ok (each i _ (List.getElem?_eq_getElem hi))).1 j
      rw [found, or_iff_right List.not_mem_nil]
      constructor
      · rintro ⟨d, hd, at_j⟩
        rw [idxOf?_eq_some_iff_getElem? distinct, List.getElem?_map] at at_j
        obtain ⟨e, he, rfl⟩ := Option.map_eq_some_iff.1 at_j
        exact ⟨_, e, List.getElem?_eq_getElem hi, he, hd⟩
      · rintro ⟨r, d, hr, hd, named⟩
        rw [List.getElem?_eq_getElem hi] at hr
        cases hr
        refine ⟨d.name, named, (idxOf?_eq_some_iff_getElem? distinct).2 ?_⟩
        rw [List.getElem?_map, hd]
        rfl
    · refine ⟨fun hj ↦ absurd (size ▸ lt_of_mem_needsOf hj) hi, fun hj ↦ absurd ?_ hi⟩
      exact lt_of_needs hj

/-! ### Leading to a circle -/

/-- Declaration `i` is in a circle, or needs one that is, by way of none or several others. -/
def LeadsToCircle (rs : List Declaration) (i : Nat) : Prop :=
  ∃ c, Relation.ReflTransGen (Needs rs) i c ∧ IsInCircle rs c

theorem IsInCircle.leadsToCircle (h : IsInCircle rs i) : LeadsToCircle rs i := ⟨i, .refl, h⟩

/-- Who leads to a circle needs somebody who does. -/
theorem LeadsToCircle.exists_needs (h : LeadsToCircle rs i) :
    ∃ j, Needs rs i j ∧ LeadsToCircle rs j := by
  obtain ⟨c, path, circle⟩ := h
  rcases path.cases_head with rfl | ⟨j, first, rest⟩
  · obtain ⟨j, first, rest⟩ := Relation.TransGen.head'_iff.1 circle
    exact ⟨j, first, i, rest, circle⟩
  · exact ⟨j, first, c, rest, circle⟩

theorem LeadsToCircle.lt (h : LeadsToCircle rs i) : i < rs.length := by
  obtain ⟨j, first, -⟩ := h.exists_needs
  exact lt_of_needs first

/-- Who needs somebody that leads to a circle does so too. -/
theorem LeadsToCircle.of_transGen (h : LeadsToCircle rs j)
    (path : Relation.TransGen (Needs rs) i j) : LeadsToCircle rs i := by
  obtain ⟨c, rest, circle⟩ := h
  exact ⟨c, path.to_reflTransGen.trans rest, circle⟩

/-- Needs that lead to no circle cannot be followed for ever. -/
theorem wellFounded_needs (rs : List Declaration) :
    WellFounded fun j i : Fin rs.length ↦
      Relation.TransGen (Needs rs) i j ∧ ¬ LeadsToCircle rs i := by
  have : IsTrans (Fin rs.length) fun j i ↦
      Relation.TransGen (Needs rs) i j ∧ ¬ LeadsToCircle rs i :=
    ⟨fun _ _ _ ⟨first, _⟩ ⟨second, apart⟩ ↦ ⟨second.trans first, apart⟩⟩
  have : Std.Irrefl fun j i : Fin rs.length ↦
      Relation.TransGen (Needs rs) i j ∧ ¬ LeadsToCircle rs i :=
    ⟨fun _ ⟨circle, apart⟩ ↦ apart (IsInCircle.leadsToCircle circle)⟩
  exact Finite.wellFounded_of_trans_of_irrefl _

/-- What is placed leads to no circle. -/
theorem IsGreedy.not_leadsToCircle (h : IsGreedy table placed) (needs : IsTableOf rs table) :
    ∀ i ∈ placed, ¬ LeadsToCircle rs i := by
  induction h with
  | nil => nofun
  | cons _ free _ ih =>
    refine List.forall_mem_cons.2 ⟨fun leads ↦ ?_, ih⟩
    obtain ⟨j, needed, leads⟩ := leads.exists_needs
    exact ih j (free.met j ((needs.needs _ j).2 needed)) leads

/-- **When none is free any more, those that lead to a circle are left, and nobody else.** -/
theorem mem_placed_iff (needs : IsTableOf rs table) (greedy : IsGreedy table placed)
    (ended : ∀ i, ¬ IsFree table placed i) (hi : i < rs.length) :
    i ∈ placed ↔ ¬ LeadsToCircle rs i := by
  refine ⟨greedy.not_leadsToCircle needs i, ?_⟩
  suffices all : ∀ x : Fin rs.length, ¬ LeadsToCircle rs x → (x : Nat) ∈ placed from all ⟨i, hi⟩
  intro x
  induction x using (wellFounded_needs rs).induction with
  | _ x ih =>
    intro apart
    by_contra left
    refine ended x ⟨Nat.lt_of_lt_of_eq x.2 needs.size.symm, left, fun j hj ↦ ?_⟩
    have needed : Relation.TransGen (Needs rs) x j := .single ((needs.needs x j).1 hj)
    have known : j < rs.length := Nat.lt_of_lt_of_eq (needs.known x j hj) needs.size
    exact ih ⟨j, known⟩ ⟨needed, apart⟩ fun leads ↦ apart (leads.of_transGen needed)

/-! ### Who is named -/

/-- Declaration `i` leads to a circle, and none declared before does. -/
structure IsFirstToCircle (rs : List Declaration) (i : Nat) : Prop where
  leads : LeadsToCircle rs i
  first : ∀ k < i, ¬ LeadsToCircle rs k

theorem IsFirstToCircle.unique (h : IsFirstToCircle rs i) (other : IsFirstToCircle rs j) :
    i = j :=
  Nat.le_antisymm (Nat.le_of_not_lt fun before ↦ h.first j before other.leads)
    (Nat.le_of_not_lt fun before ↦ other.first i before h.leads)

/-- It is in a circle itself unless it was declared before all circles that there are. -/
theorem IsFirstToCircle.isInCircle_iff (h : IsFirstToCircle rs i) :
    IsInCircle rs i ↔ ∀ k, LeadsToCircle rs k → ∃ c ≤ k, IsInCircle rs c := by
  constructor
  · exact fun circle k leads ↦ ⟨i, Nat.le_of_not_lt fun before ↦ h.first k before leads, circle⟩
  · intro early
    obtain ⟨c, le, circle⟩ := early i h.leads
    have same : c = i := Nat.le_antisymm le <| Nat.le_of_not_lt fun before ↦
      h.first c before circle.leadsToCircle
    exact same ▸ circle

/-- The frontier of a table when all turns are taken. -/
def last (table : List (List Nat)) : Frontier :=
  (Frontier.initial table).placeMany table table.length

theorem ofNeeds_eq (rs : List Declaration) (table : List (List Nat)) :
    ofNeeds rs table = match (last table).firstUnmet? with
      | some i => .error (.dependencyCycle ((rs[i]?.map (·.name)).getD ""))
      | none => .ok (last table).placed.reverse := rfl

namespace IsTableOf

variable (needs : IsTableOf rs table)
include needs

theorem tracks_last : Frontier.Tracks table (last table) :=
  Frontier.tracks_placeMany needs.toIsTable table.length (Frontier.tracks_initial table)

theorem mem_placed_last_iff (hi : i < rs.length) :
    i ∈ (last table).placed ↔ ¬ LeadsToCircle rs i :=
  mem_placed_iff needs needs.tracks_last.greedy
    (Frontier.not_isFree_placeMany needs.toIsTable) hi

/-- In the end, those that lead to a circle have an unmet need, and nobody else has. -/
theorem unmet_last_pos_iff (hi : i < rs.length) :
    0 < (last table).unmet[i]?.getD 0 ↔ LeadsToCircle rs i := by
  have placed := needs.mem_placed_last_iff hi
  rw [Nat.pos_iff_ne_zero, ne_eq, needs.tracks_last.unmet_eq_zero_iff]
  constructor
  · intro unmet
    by_contra apart
    exact unmet (needs.tracks_last.greedy.met i (placed.2 apart))
  · intro leads met
    obtain ⟨j, needed, more⟩ := leads.exists_needs
    have there := met j ((needs.needs i j).2 needed)
    exact needs.tracks_last.greedy.not_leadsToCircle needs j there more

theorem firstUnmet?_last_eq_some_iff :
    (last table).firstUnmet? = some i ↔ IsFirstToCircle rs i := by
  have size : (last table).unmet.length = rs.length := needs.tracks_last.size.trans needs.size
  have each : ∀ k (hk : k < (last table).unmet.length),
      decide (0 < (last table).unmet[k]) = true ↔ LeadsToCircle rs k := by
    intro k hk
    rw [← needs.unmet_last_pos_iff (size ▸ hk), List.getElem?_eq_getElem hk, decide_eq_true_iff]
    rfl
  rw [Frontier.firstUnmet?, List.findIdx?_eq_some_iff_getElem]
  constructor
  · rintro ⟨hi, leads, before⟩
    exact ⟨(each i hi).1 leads, fun k hk ↦ mt (each k _).2 (before k hk)⟩
  · intro first
    have hi : i < (last table).unmet.length := size ▸ first.leads.lt
    exact ⟨hi, (each i hi).2 first.leads, fun k hk ↦ mt (each k _).1 (first.first k hk)⟩

theorem firstUnmet?_last_eq_none_iff :
    (last table).firstUnmet? = none ↔ ∀ i, ¬ LeadsToCircle rs i := by
  have size : (last table).unmet.length = rs.length := needs.tracks_last.size.trans needs.size
  constructor
  · intro none i leads
    have hi : i < (last table).unmet.length := size ▸ leads.lt
    have unmet := (needs.unmet_last_pos_iff leads.lt).2 leads
    rw [List.getElem?_eq_getElem hi] at unmet
    have met := List.findIdx?_eq_none_iff.1 none _ (List.getElem_mem hi)
    exact of_decide_eq_false met unmet
  · intro apart
    cases found : (last table).firstUnmet? with
    | none => rfl
    | some i => exact absurd (needs.firstUnmet?_last_eq_some_iff.1 found).leads (apart i)

end IsTableOf

/-! ### What becomes of a table -/

theorem isClosed_iff : IsClosed rs ↔ ∀ r ∈ rs, ∀ n ∈ r.dependsOn, n ∈ rs.map (·.name) := by
  simp only [IsClosed, List.mem_map]

instance (rs : List Declaration) : Decidable (IsClosed rs) :=
  inferInstanceAs (Decidable (∀ r ∈ rs, ∀ n ∈ r.dependsOn, ∃ d ∈ rs, d.name = n))

theorem isClosed_of_allNeeds (h : allNeeds (rs.map (·.name)) rs = .ok table) : IsClosed rs := by
  refine isClosed_iff.2 fun r hr ↦ ?_
  obtain ⟨i, hi⟩ := List.mem_iff_getElem?.1 hr
  exact mem_names_of_needs ((allNeeds_eq_ok h).2 i r hi)

/-- A sound table has needs, and its order is that of its needs. -/
theorem exists_isTableOf (distinct : (rs.map (·.name)).Nodup) (closed : IsClosed rs) :
    ∃ table, IsTableOf rs table ∧ startOrder rs = ofNeeds rs table := by
  have single : firstRepeated? [] (rs.map (·.name)) = none :=
    firstRepeated?_eq_none_iff.2 ⟨distinct, fun _ _ ↦ List.not_mem_nil⟩
  cases found : allNeeds (rs.map (·.name)) rs with
  | error e =>
    obtain ⟨r, hr, d, hd, unknown, -⟩ := allNeeds_eq_error found
    exact absurd (isClosed_iff.1 closed r hr d hd) unknown
  | ok table =>
    refine ⟨table, isTableOf_of_allNeeds distinct found, ?_⟩
    unfold startOrder
    dsimp only
    rw [single, found]
    rfl

/-- What is reported as repeated stands twice. -/
theorem firstRepeated?_eq_some {seen ns : List String} {n : String}
    (h : firstRepeated? seen ns = some n) : n ∈ ns ∧ (n ∈ seen ∨ List.Duplicate n ns) := by
  induction ns generalizing seen with
  | nil => cases h
  | cons m ns ih =>
    unfold firstRepeated? at h
    split at h
    · rename_i old
      cases h
      exact ⟨List.mem_cons_self, .inl old⟩
    · obtain ⟨later, twice⟩ := ih h
      refine ⟨List.mem_cons_of_mem _ later, ?_⟩
      rcases twice with old | twice
      · exact (List.mem_cons.1 old).elim (fun same ↦ .inr (same ▸ .cons_mem later)) .inl
      · exact .inr (.cons_duplicate twice)

/-- A table in which names repeat is refused for one of them. -/
theorem startOrder_of_not_nodup (h : ¬ (rs.map (·.name)).Nodup) :
    ∃ n, List.Duplicate n (rs.map (·.name)) ∧ startOrder rs = .error (.duplicateResource n) := by
  cases found : firstRepeated? [] (rs.map (·.name)) with
  | none => exact absurd (firstRepeated?_eq_none_iff.1 found).1 h
  | some n =>
    refine ⟨n, (firstRepeated?_eq_some found).2.resolve_left List.not_mem_nil, ?_⟩
    unfold startOrder
    dsimp only
    rw [found]

/-- Where no name repeats, a table with a dependency that nobody is named is refused for one. -/
theorem startOrder_of_not_isClosed (distinct : (rs.map (·.name)).Nodup) (h : ¬ IsClosed rs) :
    ∃ r ∈ rs, ∃ d ∈ r.dependsOn, (∀ e ∈ rs, e.name ≠ d) ∧
      startOrder rs = .error (.unknownDependency r.name d) := by
  have single : firstRepeated? [] (rs.map (·.name)) = none :=
    firstRepeated?_eq_none_iff.2 ⟨distinct, fun _ _ ↦ List.not_mem_nil⟩
  cases found : allNeeds (rs.map (·.name)) rs with
  | ok table => exact absurd (isClosed_of_allNeeds found) h
  | error e =>
    obtain ⟨r, hr, d, hd, unknown, rfl⟩ := allNeeds_eq_error found
    refine ⟨r, hr, d, hd, fun e he same ↦ unknown (same ▸ List.mem_map_of_mem he), ?_⟩
    unfold startOrder
    dsimp only
    rw [single, found]
    rfl

namespace IsTableOf

/-- A table whose needs are known has an order unless somebody leads to a circle. -/
theorem ofNeeds_eq_ok_iff (needs : IsTableOf rs table) {order : List Nat} :
    ofNeeds rs table = .ok order ↔
      (∀ i, ¬ LeadsToCircle rs i) ∧ (last table).placed.reverse = order := by
  rw [← needs.firstUnmet?_last_eq_none_iff, ofNeeds_eq]
  split <;> simp_all

/-- Otherwise the one declared first of those that do is named. -/
theorem ofNeeds_eq_error_iff (needs : IsTableOf rs table) {e : RunError} :
    ofNeeds rs table = .error e ↔
      ∃ i r, rs[i]? = some r ∧ IsFirstToCircle rs i ∧ RunError.dependencyCycle r.name = e := by
  rw [ofNeeds_eq]
  split
  · rename_i i found
    have first := needs.firstUnmet?_last_eq_some_iff.1 found
    have hi : i < rs.length := first.leads.lt
    have here : rs[i]? = some rs[i] := List.getElem?_eq_getElem hi
    rw [here, Except.error.injEq]
    constructor
    · exact fun same ↦ ⟨i, _, here, first, same⟩
    · rintro ⟨k, r, hr, other, same⟩
      obtain rfl : k = i := other.unique first
      rw [here, Option.some.injEq] at hr
      exact hr ▸ same
  · rename_i nobody
    refine ⟨nofun, ?_⟩
    rintro ⟨i, _, _, first, _⟩
    exact absurd first.leads (needs.firstUnmet?_last_eq_none_iff.1 nobody i)

end IsTableOf

/-- **A circle is reported of the sound tables in which somebody leads to one, and named is who was
declared first of those that do.** -/
theorem startOrder_eq_dependencyCycle_iff {name : String} :
    startOrder rs = .error (.dependencyCycle name) ↔ (rs.map (·.name)).Nodup ∧ IsClosed rs ∧
      ∃ i r, rs[i]? = some r ∧ IsFirstToCircle rs i ∧ r.name = name := by
  by_cases distinct : (rs.map (·.name)).Nodup
  · by_cases closed : IsClosed rs
    · obtain ⟨table, needs, same⟩ := exists_isTableOf distinct closed
      rw [same, needs.ofNeeds_eq_error_iff, and_iff_right distinct, and_iff_right closed]
      simp only [RunError.dependencyCycle.injEq]
    · obtain ⟨r, -, d, -, -, refused⟩ := startOrder_of_not_isClosed distinct closed
      rw [refused]
      exact ⟨nofun, fun h ↦ absurd h.2.1 closed⟩
  · obtain ⟨n, -, refused⟩ := startOrder_of_not_nodup distinct
    rw [refused]
    exact ⟨nofun, fun h ↦ absurd h.1 distinct⟩

/-- **Who is named of a circle leads to one, and is in one exactly when no one that leads to a
circle was declared before all that are in one.** -/
theorem circle_isTrue_iff {name : String}
    (h : startOrder rs = .error (.dependencyCycle name)) :
    (∃ i r, rs[i]? = some r ∧ r.name = name ∧ LeadsToCircle rs i) ∧
      ((∃ i r, rs[i]? = some r ∧ r.name = name ∧ IsInCircle rs i) ↔
        ∀ k, LeadsToCircle rs k → ∃ c ≤ k, IsInCircle rs c) := by
  obtain ⟨distinct, -, i, r, hr, first, rfl⟩ := startOrder_eq_dependencyCycle_iff.1 h
  refine ⟨⟨i, r, hr, rfl, first.leads⟩, ?_⟩
  rw [← first.isInCircle_iff]
  constructor
  · rintro ⟨k, q, hq, same, circle⟩
    have there : (rs.map (·.name))[k]? = (rs.map (·.name))[i]? := by
      rw [List.getElem?_map, List.getElem?_map, hq, hr, Option.map_some, Option.map_some, same]
    have hk : k < (rs.map (·.name)).length := by simpa using circle.leadsToCircle.lt
    exact (List.getElem?_inj hk distinct).1 there ▸ circle
  · exact fun circle ↦ ⟨i, r, hr, rfl, circle⟩

/-- Two resources that wait for each other, declared before one that waits for them. -/
def knot : List Declaration := [⟨"a", ["b"]⟩, ⟨"b", ["a"]⟩, ⟨"c", ["a"]⟩]

theorem knot_is_named : startOrder knot = .error (.dependencyCycle "a") ∧
    ∃ i r, knot[i]? = some r ∧ r.name = "a" ∧ IsInCircle knot i := by
  have refused : startOrder knot = .error (.dependencyCycle "a") := by decide +kernel
  have ab : Needs knot 0 1 := ⟨_, _, rfl, rfl, by decide⟩
  have ba : Needs knot 1 0 := ⟨_, _, rfl, rfl, by decide⟩
  have circle : IsInCircle knot 0 := .tail (.single ab) ba
  exact ⟨refused, (circle_isTrue_iff refused).2.2 fun k _ ↦ ⟨0, Nat.zero_le k, circle⟩⟩

/-- One that waits for two resources that wait for each other, and is declared before them. -/
def bystander : List Declaration := [⟨"c", ["a"]⟩, ⟨"a", ["b"]⟩, ⟨"b", ["a"]⟩]

/-- Its circle is reported under the name of the one that is in none. -/
theorem bystander_is_named : (bystander.map (·.name)).Nodup ∧ IsClosed bystander ∧
    startOrder bystander = .error (.dependencyCycle "c") ∧
    ¬ ∃ i r, bystander[i]? = some r ∧ r.name = "c" ∧ IsInCircle bystander i := by
  refine ⟨by decide, by decide, by decide +kernel, ?_⟩
  rintro ⟨i, r, hr, named, circle⟩
  have only : ∀ k q, bystander[k]? = some q → q.name = "c" → k = 0 := by
    intro k q hq hn
    match k with
    | 0 => rfl
    | 1 | 2 => cases hq; exact absurd hn (by decide)
    | k + 3 => cases hq
  obtain rfl := only i r hr named
  -- Nobody needs the first one.
  obtain ⟨k, -, q, d, hq, hd, needed⟩ := Relation.TransGen.tail'_iff.1 circle
  cases hd
  match k with
  | 0 | 1 | 2 => cases hq; exact absurd needed (by decide)
  | k + 3 => cases hq

end StartOrder

end Supervision
