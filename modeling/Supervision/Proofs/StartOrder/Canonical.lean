import Supervision.Proofs.StartOrder.Circles

/-!
# The canonical start order

A table has a start order exactly when no name repeats, every dependency names somebody, and nobody
is in a circle; the order that is found is then the least of all its start orders
(`startOrder_is_canonical`). It is least because each declaration that was placed was the free one
declared first: where another order differs for the first time, it cannot have an earlier one.
-/

namespace Supervision

namespace StartOrder

variable {rs : List Declaration} {table : List (List Nat)} {placed order other : List Nat}
  {i j k : Nat}

/-- Where nobody is in a circle, nobody leads to one. -/
theorem forall_not_leadsToCircle_iff :
    (∀ i, ¬ LeadsToCircle rs i) ↔ ∀ i, ¬ IsInCircle rs i :=
  ⟨fun apart i circle ↦ apart i circle.leadsToCircle, fun none _ ⟨c, _, circle⟩ ↦ none c circle⟩

/-! ### Start orders -/

namespace IsStartOrder

theorem mem_iff (h : IsStartOrder rs order) : i ∈ order ↔ i < rs.length :=
  h.perm.mem_iff.trans List.mem_range

theorem nodup (h : IsStartOrder rs order) : order.Nodup := h.perm.nodup_iff.2 List.nodup_range

theorem length_eq (h : IsStartOrder rs order) : order.length = rs.length :=
  h.perm.length_eq.trans List.length_range

/-- What comes next in a start order is free. -/
theorem isFree {behind : List Nat} (h : IsStartOrder rs (placed.reverse ++ i :: behind))
    (needs : IsTableOf rs table) : IsFree table placed i where
  lt := needs.size ▸ h.mem_iff.1 (List.mem_append_right _ List.mem_cons_self)
  unplaced old := (List.nodup_append.1 h.nodup).2.2 i (List.mem_reverse.2 old) i
    List.mem_cons_self rfl
  met j needed := List.mem_reverse.1 <|
    h.needs_before _ _ _ rfl j ((needs.needs i j).1 needed)

end IsStartOrder

namespace IsGreedy

/-- What was placed before is what stands before. -/
theorem isFree_of_reverse_eq {before behind : List Nat} (h : IsGreedy table placed)
    (split : placed.reverse = before ++ i :: behind) :
    IsFree table before.reverse i ∧ ∀ j, IsFree table before.reverse j → i ≤ j := by
  have same : placed = behind.reverse ++ i :: before.reverse := by
    rw [← List.reverse_reverse placed, split, List.reverse_append, List.reverse_cons,
      List.append_assoc, List.singleton_append]
  exact (same ▸ h).at_placing

theorem isStartOrder (h : IsGreedy table placed) (needs : IsTableOf rs table)
    (all : ∀ i < rs.length, i ∈ placed) : IsStartOrder rs placed.reverse where
  perm := by
    refine (List.reverse_perm placed).trans ?_
    refine (List.perm_ext_iff_of_nodup h.nodup List.nodup_range).2 fun i ↦ ?_
    rw [List.mem_range]
    exact ⟨fun hi ↦ needs.size ▸ h.lt i hi, all i⟩
  needs_before before i behind split j needed :=
    List.mem_reverse.1 <| (h.isFree_of_reverse_eq split).1.met j ((needs.needs i j).2 needed)

end IsGreedy

/-- Of two lists of one length, the one that precedes has the smaller number where they differ
first. -/
theorem exists_of_lex {xs ys : List Nat} (h : List.Lex (· < ·) xs ys)
    (same : xs.length = ys.length) :
    ∃ before a as b bs, xs = before ++ a :: as ∧ ys = before ++ b :: bs ∧ a < b := by
  induction h with
  | nil => cases same
  | @rel a as b bs lt => exact ⟨[], a, as, b, bs, rfl, rfl, lt⟩
  | @cons x _ _ _ ih =>
    obtain ⟨before, a, as, b, bs, rfl, rfl, lt⟩ := ih (Nat.succ.inj same)
    exact ⟨x :: before, a, as, b, bs, rfl, rfl, lt⟩

/-- **No start order precedes the one in which always the free one declared first was placed.** -/
theorem IsGreedy.isLeast (h : IsGreedy table placed) (needs : IsTableOf rs table)
    (all : ∀ i < rs.length, i ∈ placed) : IsLeast rs placed.reverse where
  isStartOrder := h.isStartOrder needs all
  not_lex other order less := by
    have same : other.length = placed.reverse.length :=
      order.length_eq.trans (h.isStartOrder needs all).length_eq.symm
    obtain ⟨before, a, as, b, bs, rfl, split, lt⟩ := exists_of_lex less same
    rw [← List.reverse_reverse before] at order
    have least := (h.isFree_of_reverse_eq split).2 a (order.isFree needs)
    exact Nat.not_lt_of_le least lt

/-- In a sound table without a circle all are placed in the end. -/
theorem IsTableOf.isLeast_last (needs : IsTableOf rs table)
    (apart : ∀ i, ¬ LeadsToCircle rs i) : IsLeast rs (last table).placed.reverse :=
  needs.tracks_last.greedy.isLeast needs fun i hi ↦ (needs.mem_placed_last_iff hi).2 (apart i)

/-! ### What is answered -/

theorem exists_startOrder_eq_ok_iff : (∃ order, startOrder rs = .ok order) ↔
    (rs.map (·.name)).Nodup ∧ IsClosed rs ∧ ∀ i, ¬ IsInCircle rs i := by
  by_cases distinct : (rs.map (·.name)).Nodup
  · by_cases closed : IsClosed rs
    · obtain ⟨table, needs, same⟩ := exists_isTableOf distinct closed
      rw [← forall_not_leadsToCircle_iff, and_iff_right distinct, and_iff_right closed, same]
      simp only [needs.ofNeeds_eq_ok_iff, exists_and_left, exists_eq', and_true]
    · obtain ⟨r, -, d, -, -, refused⟩ := startOrder_of_not_isClosed distinct closed
      rw [refused]
      exact ⟨nofun, fun h ↦ absurd h.2.1 closed⟩
  · obtain ⟨n, -, refused⟩ := startOrder_of_not_nodup distinct
    rw [refused]
    exact ⟨nofun, fun h ↦ absurd h.1 distinct⟩

/-- What is found is the least start order. -/
theorem isLeast_of_startOrder (h : startOrder rs = .ok order) : IsLeast rs order := by
  obtain ⟨distinct, closed, apart⟩ := exists_startOrder_eq_ok_iff.1 ⟨order, h⟩
  obtain ⟨table, needs, same⟩ := exists_isTableOf distinct closed
  obtain ⟨apart, rfl⟩ := needs.ofNeeds_eq_ok_iff.1 (same ▸ h)
  exact needs.isLeast_last apart

/-- In a sound table somebody in a circle is enough for a circle to be reported. -/
theorem startOrder_of_isInCircle (distinct : (rs.map (·.name)).Nodup) (closed : IsClosed rs)
    (circle : IsInCircle rs i) : ∃ r ∈ rs, startOrder rs = .error (.dependencyCycle r.name) := by
  obtain ⟨table, needs, same⟩ := exists_isTableOf distinct closed
  cases answer : ofNeeds rs table with
  | ok order =>
    exact absurd circle.leadsToCircle ((needs.ofNeeds_eq_ok_iff.1 answer).1 i)
  | error e =>
    obtain ⟨k, r, hr, -, rfl⟩ := needs.ofNeeds_eq_error_iff.1 answer
    exact ⟨r, List.mem_of_getElem? hr, same.trans answer⟩

/-- **What a start order is found to be.** A table has one exactly when no name repeats, every
dependency names somebody and nobody is in a circle, and it is the least. Otherwise a name that
repeats is reported, else a dependency that nobody is named, else a circle. In all tables whose
needs are known, no count of unmet needs is lowered that is not there and positive. -/
theorem startOrder_is_canonical (rs : List Declaration) :
    ((∃ order, startOrder rs = .ok order) ↔
      (rs.map (·.name)).Nodup ∧ IsClosed rs ∧ ∀ i, ¬ IsInCircle rs i) ∧
    (∀ order, startOrder rs = .ok order → IsLeast rs order) ∧
    (¬ (rs.map (·.name)).Nodup →
      ∃ n, List.Duplicate n (rs.map (·.name)) ∧ startOrder rs = .error (.duplicateResource n)) ∧
    ((rs.map (·.name)).Nodup → ¬ IsClosed rs →
      ∃ r ∈ rs, ∃ d ∈ r.dependsOn, (∀ e ∈ rs, e.name ≠ d) ∧
        startOrder rs = .error (.unknownDependency r.name d)) ∧
    ((rs.map (·.name)).Nodup → IsClosed rs → (∃ i, IsInCircle rs i) →
      ∃ r ∈ rs, startOrder rs = .error (.dependencyCycle r.name)) ∧
    ∀ table, allNeeds (rs.map (·.name)) rs = .ok table → Frontier.CountsDown table :=
  ⟨exists_startOrder_eq_ok_iff, fun _ ↦ isLeast_of_startOrder, startOrder_of_not_nodup,
    startOrder_of_not_isClosed,
    fun distinct closed ⟨_, circle⟩ ↦ startOrder_of_isInCircle distinct closed circle,
    fun _ found ↦ Frontier.countsDown (isTable_of_allNeeds found)⟩

example : startOrder [⟨"api", ["db", "cache"]⟩, ⟨"metrics", []⟩, ⟨"cache", ["db"]⟩, ⟨"db", []⟩] =
    .ok [1, 3, 2, 0] := by decide +kernel

end StartOrder

end Supervision
