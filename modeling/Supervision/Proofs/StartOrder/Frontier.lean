import Mathlib.Data.List.Nodup
import Supervision.StartOrder

/-!
# Placing one by one

What is known while a start order is built, from a table in which the needs of every declaration
are declarations, each named once (`IsTable`). A declaration is free when it is not placed and all
it needs is (`IsFree`); each one that is placed was the free one declared first (`IsGreedy`). The
counts of a frontier are always those of the needs that are not placed, and what is ready is what is
free (`Frontier.Tracks`).

* `Frontier.Tracks.place` — placing one keeps this, and `Frontier.tracks_placeMany` placing many.
* `Frontier.countsDown` — no need is counted off that was not counted.
* `Frontier.not_isFree_placeMany` — after as many turns as there are declarations none is free.
-/

namespace Supervision

namespace StartOrder

variable {needs : List (List Nat)} {placed : List Nat} {i j k : Nat}

/-! ### Tables of needs -/

/-- What declaration `k` needs. -/
def needsOf (needs : List (List Nat)) (k : Nat) : List Nat := needs[k]?.getD []

/-- The needs of every declaration are declarations, each named once. -/
structure IsTable (needs : List (List Nat)) : Prop where
  nodup : ∀ k, (needsOf needs k).Nodup
  known : ∀ k, ∀ j ∈ needsOf needs k, j < needs.length

theorem lt_of_mem_needsOf (h : j ∈ needsOf needs k) : k < needs.length := by
  by_contra beyond
  rw [needsOf, List.getElem?_eq_none (Nat.le_of_not_lt beyond)] at h
  exact List.not_mem_nil h

/-- Declaration `i` is not placed, and all it needs is. -/
structure IsFree (needs : List (List Nat)) (placed : List Nat) (i : Nat) : Prop where
  lt : i < needs.length
  unplaced : i ∉ placed
  met : ∀ j ∈ needsOf needs i, j ∈ placed

/-- Each of those placed, the latest first, was the free one declared first. -/
inductive IsGreedy (needs : List (List Nat)) : List Nat → Prop
  | nil : IsGreedy needs []
  | cons {placed : List Nat} {i : Nat} (before : IsGreedy needs placed)
      (free : IsFree needs placed i) (least : ∀ j, IsFree needs placed j → i ≤ j) :
      IsGreedy needs (i :: placed)

namespace IsGreedy

theorem nodup (h : IsGreedy needs placed) : placed.Nodup := by
  induction h with
  | nil => exact List.nodup_nil
  | cons _ free _ ih => exact List.nodup_cons.2 ⟨free.unplaced, ih⟩

theorem lt (h : IsGreedy needs placed) : ∀ i ∈ placed, i < needs.length := by
  induction h with
  | nil => nofun
  | cons _ free _ ih => exact List.forall_mem_cons.2 ⟨free.lt, ih⟩

/-- What is placed has all it needs. -/
theorem met (h : IsGreedy needs placed) : ∀ i ∈ placed, ∀ j ∈ needsOf needs i, j ∈ placed := by
  induction h with
  | nil => nofun
  | cons _ free _ ih =>
    refine List.forall_mem_cons.2 ⟨fun j hj ↦ ?_, fun i hi j hj ↦ ?_⟩
    · exact List.mem_cons_of_mem _ (free.met j hj)
    · exact List.mem_cons_of_mem _ (ih i hi j hj)

/-- When it was placed, `i` was the free one declared first. -/
theorem at_placing {behind : List Nat} (h : IsGreedy needs (behind ++ i :: placed)) :
    IsFree needs placed i ∧ ∀ j, IsFree needs placed j → i ≤ j := by
  induction behind with
  | nil =>
    cases h with
    | cons _ free least => exact ⟨free, least⟩
  | cons _ _ ih =>
    cases h with
    | cons before _ _ => exact ih before

/-- All declarations are placed when as many are as there are. -/
theorem not_isFree (h : IsGreedy needs placed) (all : needs.length ≤ placed.length) :
    ¬ IsFree needs placed i := by
  intro free
  have more : (i :: placed).Nodup := List.nodup_cons.2 ⟨free.unplaced, h.nodup⟩
  have known : ∀ j ∈ i :: placed, j < needs.length := List.forall_mem_cons.2 ⟨free.lt, h.lt⟩
  have short := more.length_le_of_subset fun j hj ↦ List.mem_range.2 (known j hj)
  rw [List.length_range, List.length_cons] at short
  omega

end IsGreedy

/-! ### Counts -/

/-- How many of some needs are not placed. -/
def unmetOf (placed ns : List Nat) : Nat := ns.countP (· ∉ placed)

theorem unmetOf_eq_zero_iff {ns : List Nat} : unmetOf placed ns = 0 ↔ ∀ j ∈ ns, j ∈ placed := by
  simp [unmetOf]

/-- One more that is placed is one need less for those that need it. -/
theorem unmetOf_cons {ns : List Nat} (nodup : ns.Nodup) (new : i ∉ placed) :
    unmetOf placed ns = unmetOf (i :: placed) ns + if i ∈ ns then 1 else 0 := by
  induction ns with
  | nil => rfl
  | cons j ns ih =>
    obtain ⟨other, nodup⟩ := List.nodup_cons.1 nodup
    have rest := ih nodup
    unfold unmetOf at rest ⊢
    rw [List.countP_cons, List.countP_cons, rest]
    by_cases same : j = i
    · subst same
      simp [other, new]
    · have ne : i ≠ j := Ne.symm same
      simp only [List.mem_cons, same, ne, false_or]
      omega

namespace Frontier

variable {f : Frontier} {ks : List Nat}

theorem mem_dependents : k ∈ dependents needs i ↔ i ∈ needsOf needs k := by
  unfold dependents needsOf
  rw [List.mem_filter, List.mem_range, List.contains_iff_mem]
  exact ⟨And.right, fun h ↦ ⟨lt_of_mem_needsOf h, h⟩⟩

theorem nodup_dependents : (dependents needs i).Nodup := List.nodup_range.filter _

/-! ### The ready ones -/

theorem mem_insertUp {js : List Nat} : j ∈ insertUp k js ↔ j = k ∨ j ∈ js := by
  induction js with
  | nil => simp [insertUp]
  | cons i js ih =>
    unfold insertUp
    split
    · exact List.mem_cons
    · split
      · rename_i same
        rw [same, List.mem_cons]
        exact ⟨.inr, fun h ↦ h.elim .inl id⟩
      · rw [List.mem_cons, ih, List.mem_cons]
        tauto

theorem pairwise_insertUp {js : List Nat} (h : js.Pairwise (· < ·)) :
    (insertUp k js).Pairwise (· < ·) := by
  induction js with
  | nil => exact List.pairwise_singleton _ _
  | cons i js ih =>
    obtain ⟨first, rest⟩ := List.pairwise_cons.1 h
    unfold insertUp
    split
    · rename_i before
      refine List.pairwise_cons.2 ⟨List.forall_mem_cons.2 ⟨before, fun j hj ↦ ?_⟩, h⟩
      exact Nat.lt_trans before (first j hj)
    · split
      · exact h
      · refine List.pairwise_cons.2 ⟨fun j hj ↦ ?_, ih rest⟩
        rcases mem_insertUp.1 hj with rfl | hj
        · omega
        · exact first j hj

/-! ### What is met -/

theorem placed_meetAll (ks : List Nat) (f : Frontier) : (ks.foldl meet f).placed = f.placed := by
  induction ks generalizing f with
  | nil => rfl
  | cons k ks ih => exact ih (f.meet k)

theorem length_unmet_meetAll (ks : List Nat) (f : Frontier) :
    (ks.foldl meet f).unmet.length = f.unmet.length := by
  induction ks generalizing f with
  | nil => rfl
  | cons k ks ih => exact (ih (f.meet k)).trans (List.length_set ..)

theorem unmet_meet (f : Frontier) (k j : Nat) :
    (f.meet k).unmet[j]?.getD 0 = f.unmet[j]?.getD 0 - if j = k then 1 else 0 := by
  unfold meet
  dsimp only
  rw [List.getElem?_set]
  by_cases same : j = k
  · subst same
    rw [if_pos rfl, if_pos rfl]
    split
    · rfl
    · rename_i beyond
      rw [List.getElem?_eq_none (Nat.le_of_not_lt beyond)]
      rfl
  · rw [if_neg (Ne.symm same), if_neg same]
    rfl

/-- Each of those that are met has one unmet need less, and nobody else has. -/
theorem unmet_meetAll (nodup : ks.Nodup) (f : Frontier) (j : Nat) :
    (ks.foldl meet f).unmet[j]?.getD 0 = f.unmet[j]?.getD 0 - if j ∈ ks then 1 else 0 := by
  induction ks generalizing f with
  | nil => rfl
  | cons k ks ih =>
    obtain ⟨new, nodup⟩ := List.nodup_cons.1 nodup
    rw [List.foldl_cons, ih nodup, unmet_meet]
    by_cases same : j = k
    · subst same
      simp [new]
    · simp [same]

theorem mem_ready_meet : j ∈ (f.meet k).ready ↔
    j ∈ f.ready ∨ j = k ∧ f.unmet[k]?.getD 0 - 1 = 0 := by
  unfold meet
  dsimp only
  split
  · rename_i last
    rw [mem_insertUp, or_comm, and_iff_left last]
  · rename_i more
    exact ⟨.inl, fun h ↦ h.resolve_right fun last ↦ more last.2⟩

/-- Those of them whose last need was met become ready. -/
theorem mem_ready_meetAll (nodup : ks.Nodup) : j ∈ (ks.foldl meet f).ready ↔
    j ∈ f.ready ∨ j ∈ ks ∧ f.unmet[j]?.getD 0 - 1 = 0 := by
  induction ks generalizing f with
  | nil => simp
  | cons k ks ih =>
    obtain ⟨new, nodup⟩ := List.nodup_cons.1 nodup
    rw [List.foldl_cons, ih nodup, mem_ready_meet, unmet_meet, List.mem_cons]
    by_cases same : j = k
    · subst same
      simp [new]
    · simp [same]

theorem pairwise_ready_meetAll (sorted : f.ready.Pairwise (· < ·)) :
    (ks.foldl meet f).ready.Pairwise (· < ·) := by
  induction ks generalizing f with
  | nil => exact sorted
  | cons k ks ih =>
    refine ih (f := f.meet k) ?_
    unfold meet
    dsimp only
    split
    · exact pairwise_insertUp sorted
    · exact sorted

/-! ### The frontier -/

/-- A frontier knows what is placed, what is free, and how many needs are left. -/
structure Tracks (needs : List (List Nat)) (f : Frontier) : Prop where
  greedy : IsGreedy needs f.placed
  size : f.unmet.length = needs.length
  unmet : ∀ k, f.unmet[k]?.getD 0 = unmetOf f.placed (needsOf needs k)
  ready : ∀ i, i ∈ f.ready ↔ IsFree needs f.placed i
  sorted : f.ready.Pairwise (· < ·)

theorem tracks_initial (needs : List (List Nat)) : Tracks needs (initial needs) where
  greedy := .nil
  size := List.length_map _
  unmet k := by
    have all : ∀ ns, unmetOf [] ns = ns.length := fun ns ↦ by simp [unmetOf]
    rw [show (initial needs).placed = [] from rfl, all, needsOf]
    unfold initial
    dsimp only
    rw [List.getElem?_map]
    cases needs[k]? <;> rfl
  ready i := by
    unfold initial
    dsimp only
    rw [List.mem_filter, List.mem_range, List.isEmpty_iff]
    refine ⟨fun ⟨lt, empty⟩ ↦ ⟨lt, List.not_mem_nil, fun j hj ↦ ?_⟩, fun free ↦ ⟨free.lt, ?_⟩⟩
    · rw [needsOf, empty] at hj
      exact hj
    · exact List.eq_nil_iff_forall_not_mem.2 fun j hj ↦ List.not_mem_nil (free.met j hj)
  sorted := List.pairwise_lt_range.filter _

namespace Tracks

/-- The first of those that are ready is the free one declared first. -/
theorem least {rest : List Nat} (h : Tracks needs f) (ready : f.ready = i :: rest) :
    IsFree needs f.placed i ∧ ∀ j, IsFree needs f.placed j → i ≤ j := by
  have sorted := h.sorted
  rw [ready] at sorted
  refine ⟨(h.ready i).1 (ready ▸ List.mem_cons_self), fun j free ↦ ?_⟩
  have hj := (h.ready j).2 free
  rw [ready] at hj
  rcases List.mem_cons.1 hj with rfl | hj
  · exact Nat.le_refl _
  · exact Nat.le_of_lt ((List.pairwise_cons.1 sorted).1 j hj)

/-- A count that is nil belongs to a declaration that has all it needs. -/
theorem unmet_eq_zero_iff (h : Tracks needs f) :
    f.unmet[k]?.getD 0 = 0 ↔ ∀ j ∈ needsOf needs k, j ∈ f.placed := by
  rw [h.unmet, unmetOf_eq_zero_iff]

/-- Placing the first of those that are ready makes free what needed nothing else. -/
theorem isFree_cons_iff {rest : List Nat} (h : Tracks needs f) (ready : f.ready = i :: rest) :
    IsFree needs (i :: f.placed) j ↔
      j ∈ rest ∨ i ∈ needsOf needs j ∧ ∀ l ∈ needsOf needs j, l ∈ i :: f.placed := by
  obtain ⟨free, -⟩ := h.least ready
  have other : ∀ l ∈ rest, l ≠ i := by
    have sorted := h.sorted
    rw [ready] at sorted
    exact fun l hl ↦ Nat.ne_of_gt ((List.pairwise_cons.1 sorted).1 l hl)
  constructor
  · intro hj
    by_cases needed : i ∈ needsOf needs j
    · exact .inr ⟨needed, hj.met⟩
    · have before : IsFree needs f.placed j := by
        refine ⟨hj.lt, fun old ↦ hj.unplaced (List.mem_cons_of_mem _ old), fun l hl ↦ ?_⟩
        exact (List.mem_cons.1 (hj.met l hl)).resolve_left fun same ↦ needed (same ▸ hl)
      have listed := (h.ready j).2 before
      rw [ready] at listed
      refine .inl ((List.mem_cons.1 listed).resolve_left ?_)
      rintro rfl
      exact hj.unplaced List.mem_cons_self
  · rintro (listed | ⟨needed, met⟩)
    · have before := (h.ready j).1 (ready ▸ List.mem_cons_of_mem _ listed)
      refine ⟨before.lt, fun old ↦ ?_, fun l hl ↦ List.mem_cons_of_mem _ (before.met l hl)⟩
      exact (List.mem_cons.1 old).elim (other j listed) before.unplaced
    -- What needs `i` was not placed before `i`, and `i` does not need itself.
    · refine ⟨lt_of_mem_needsOf needed, fun old ↦ ?_, met⟩
      rcases List.mem_cons.1 old with rfl | old
      · exact free.unplaced (free.met _ needed)
      · exact free.unplaced (h.greedy.met j old i needed)

/-- **Placing one keeps what a frontier knows.** -/
theorem place (h : Tracks needs f) (table : IsTable needs) : Tracks needs (f.place needs) := by
  unfold Frontier.place
  split
  · exact h
  · rename_i i rest ready
    obtain ⟨free, least⟩ := h.least ready
    have sorted := h.sorted
    rw [ready] at sorted
    have unmet : ∀ k, f.unmet[k]?.getD 0 - (if k ∈ dependents needs i then 1 else 0) =
        unmetOf (i :: f.placed) (needsOf needs k) := by
      intro k
      rw [h.unmet, unmetOf_cons (table.nodup k) free.unplaced]
      simp only [mem_dependents]
      omega
    refine ⟨?_, ?_, fun k ↦ ?_, fun j ↦ ?_, pairwise_ready_meetAll (List.pairwise_cons.1 sorted).2⟩
    · rw [placed_meetAll]
      exact .cons h.greedy free least
    · rw [length_unmet_meetAll]
      exact h.size
    · rw [unmet_meetAll nodup_dependents, placed_meetAll]
      exact unmet k
    · rw [mem_ready_meetAll nodup_dependents, placed_meetAll, h.isFree_cons_iff ready,
        ← mem_dependents, ← unmetOf_eq_zero_iff]
      refine or_congr_right (and_congr_right fun listed ↦ ?_)
      have count := unmet j
      rw [if_pos listed] at count
      rw [← count]

end Tracks

theorem tracks_placeMany (table : IsTable needs) (count : Nat) (h : Tracks needs f) :
    Tracks needs (f.placeMany needs count) := by
  induction count generalizing f with
  | zero => exact h
  | succ count ih => exact ih (h.place table)

/-- Turn by turn one more is placed, until none is ready. -/
theorem length_placed_placeMany (needs : List (List Nat)) (count : Nat) (f : Frontier) :
    (f.placeMany needs count).ready = [] ∨
      (f.placeMany needs count).placed.length = f.placed.length + count := by
  have idle : ∀ count, ∀ f : Frontier, f.ready = [] → f.placeMany needs count = f := by
    intro count
    induction count with
    | zero => exact fun _ _ ↦ rfl
    | succ count ih =>
      intro f none
      have same : f.place needs = f := by
        unfold Frontier.place
        rw [none]
      rw [placeMany, same, ih f none]
  induction count generalizing f with
  | zero => exact .inr rfl
  | succ count ih =>
    cases ready : f.ready with
    | nil => exact .inl (by rw [idle _ f ready, ready])
    | cons i rest =>
      have more : (f.place needs).placed.length = f.placed.length + 1 := by
        unfold Frontier.place
        rw [ready]
        dsimp only
        rw [placed_meetAll]
        rfl
      refine (ih (f.place needs)).imp_right fun length ↦ ?_
      rw [placeMany, length, more]
      omega

/-- **After as many turns as there are declarations none is free.** -/
theorem not_isFree_placeMany (table : IsTable needs) (i : Nat) :
    ¬ IsFree needs ((initial needs).placeMany needs needs.length).placed i := by
  have tracks := tracks_placeMany table needs.length (tracks_initial needs)
  rcases length_placed_placeMany needs needs.length (initial needs) with none | all
  · rw [← tracks.ready, none]
    exact List.not_mem_nil
  · refine tracks.greedy.not_isFree ?_
    rw [all]
    exact Nat.le_add_left _ _

/-! ### Counting down -/

/-- Whenever a need of declaration `k` is counted off, `k` is there and has one. -/
def CountsDown (needs : List (List Nat)) : Prop :=
  ∀ (count i k : Nat) (rest before behind : List Nat),
    ((initial needs).placeMany needs count).ready = i :: rest →
    dependents needs i = before ++ k :: behind →
    ∃ m, (before.foldl meet { (initial needs).placeMany needs count with
      ready := rest
      placed := i :: ((initial needs).placeMany needs count).placed }).unmet[k]? = some (m + 1)

/-- **No need is counted off that was not counted.** -/
theorem countsDown (table : IsTable needs) : CountsDown needs := by
  intro count i k rest before behind ready split
  have tracks := tracks_placeMany table count (tracks_initial needs)
  generalize (initial needs).placeMany needs count = f at ready tracks ⊢
  have nodup : (before ++ k :: behind).Nodup := split ▸ nodup_dependents
  have new : k ∉ before := fun old ↦
    (List.nodup_append.1 nodup).2.2 k old k List.mem_cons_self rfl
  have needed : i ∈ needsOf needs k := by
    rw [← mem_dependents, split]
    exact List.mem_append_right _ List.mem_cons_self
  generalize hg : ({ f with ready := rest, placed := i :: f.placed } : Frontier) = g
  have unmet : g.unmet = f.unmet := by rw [← hg]
  have here : k < (before.foldl meet g).unmet.length := by
    rw [length_unmet_meetAll, unmet, tracks.size]
    exact lt_of_mem_needsOf needed
  have count : (before.foldl meet g).unmet[k]?.getD 0 = unmetOf f.placed (needsOf needs k) := by
    rw [unmet_meetAll (List.nodup_append.1 nodup).1, if_neg new, unmet, tracks.unmet]
    rfl
  have positive : unmetOf f.placed (needsOf needs k) ≠ 0 := fun none ↦
    (tracks.least ready).1.unplaced (unmetOf_eq_zero_iff.1 none i needed)
  rw [← count, List.getElem?_eq_getElem here] at positive
  rw [List.getElem?_eq_getElem here]
  exact ⟨_, congrArg some (Nat.succ_pred_eq_of_ne_zero positive).symm⟩

end Frontier

end StartOrder

end Supervision
