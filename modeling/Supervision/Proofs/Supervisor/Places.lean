import Mathlib.Logic.Relation
import Supervision.Proofs.StartOrder.Canonical
import Supervision.Proofs.Supervisor.Startup

/-!
# Places

The places of the resources of an accepted table are a start order of it: no name has two places
(`Setup.place_names_nodup`), and whatever a resource depends on, directly or through others,
stands before it (`Setup.Depends.lt`).
-/

namespace Supervision

/-- What is in a place of a list whose every item counts. -/
theorem getElem?_filterMap_of_isSome {α β : Type} {f : α → Option β} {xs : List α}
    (all : ∀ x ∈ xs, (f x).isSome = true) (k : Nat) :
    (xs.filterMap f)[k]? = xs[k]?.bind f := by
  induction xs generalizing k with
  | nil => rfl
  | cons x xs ih =>
    obtain ⟨y, hy⟩ := Option.isSome_iff_exists.1 (all x List.mem_cons_self)
    rw [List.filterMap_cons_some hy]
    cases k with
    | zero => exact hy.symm
    | succ k => exact ih (fun z hz ↦ all z (List.mem_cons_of_mem _ hz)) k

/-- Whatever a declaration needs stands before it in a start order. -/
theorem StartOrder.IsStartOrder.lt_of_needs {rs : List Declaration} {order : List Nat}
    {i j p q : Nat} (h : IsStartOrder rs order) (hi : order[q]? = some i) (hj : order[p]? = some j)
    (needed : Needs rs i j) : p < q := by
  obtain ⟨lt, here⟩ := List.getElem?_eq_some_iff.1 hi
  have split : order = order.take q ++ i :: order.drop (q + 1) := by
    rw [← here, ← List.drop_eq_getElem_cons lt, List.take_append_drop]
  obtain ⟨k, hk, same⟩ := List.mem_take_iff_getElem.1 (h.needs_before _ _ _ split j needed)
  obtain ⟨before, inside⟩ := Nat.lt_min.1 hk
  have there : order[k]? = order[p]? := by rw [hj, List.getElem?_eq_getElem inside, same]
  exact (List.getElem?_inj inside h.nodup).1 there ▸ before

namespace Setup

variable {S : Setup} {rs : List Resource} {p q : Nat}

/-- Whoever is in the one place depends on whoever is in the other, directly or through others. -/
def Depends (S : Setup) : Nat → Nat → Prop := Relation.TransGen fun q p ↦ p ∈ S.needs q

/-- The resources of an accepted table stand in a start order of it. -/
theorem exists_order_of_posts? (table : posts? rs = .ok S.posts) :
    ∃ order, StartOrder.IsStartOrder (rs.map fun r ↦ ⟨r.name, r.dependsOn⟩) order ∧
      S.names = order.filterMap ((rs.map (·.name))[·]?) ∧
      ∀ p : Nat, S.posts[p]? = (order[p]?.bind (rs[·]?)).map fun r ↦
        ⟨r.name, r.dependsOn.filterMap S.place?, r.behaviour⟩ := by
  obtain ⟨order, ordered, names, posts⟩ := exists_ordered_of_posts? table
  have found := (StartOrder.isLeast_of_startOrder ordered).isStartOrder
  have known : ∀ k ∈ order, (rs[k]?).isSome = true := by
    intro k hk
    have lt := found.mem_iff.1 hk
    rw [List.length_map] at lt
    rw [List.getElem?_eq_getElem lt]
    rfl
  refine ⟨order, found, ?_, fun p ↦ ?_⟩
  · rw [names, List.map_filterMap]
    simp only [List.getElem?_map]
  · rw [posts, getElem?_filterMap_of_isSome known]

/-- No two places of an accepted table have one name. -/
theorem place_names_nodup (table : posts? rs = .ok S.posts) : S.names.Nodup := by
  obtain ⟨order, found, names, -⟩ := exists_order_of_posts? table
  rw [names]
  refine found.nodup.filterMap fun i j n hi hj ↦ ?_
  obtain ⟨lt, -⟩ := List.getElem?_eq_some_iff.1 hi
  exact (List.getElem?_inj lt (names_nodup_of_posts? table)).1 (hi.trans hj.symm)

/-- **Whatever a resource depends on stands before it.** -/
theorem lt_of_mem_needs (table : posts? rs = .ok S.posts) (h : p ∈ S.needs q) : p < q := by
  obtain ⟨order, found, -, posts⟩ := exists_order_of_posts? table
  obtain ⟨needy, hq, mem⟩ := exists_post_of_mem_needs h
  rw [posts q] at hq
  obtain ⟨r, hr, rfl⟩ := Option.map_eq_some_iff.1 hq
  obtain ⟨i, hi, hr⟩ := Option.bind_eq_some_iff.1 hr
  obtain ⟨d, hd, place⟩ := List.mem_filterMap.1 mem
  obtain ⟨post, hp, rfl⟩ := exists_post_of_place? place
  rw [posts p] at hp
  obtain ⟨r', hr', rfl⟩ := Option.map_eq_some_iff.1 hp
  obtain ⟨j, hj, hr'⟩ := Option.bind_eq_some_iff.1 hr'
  refine found.lt_of_needs hi hj ⟨⟨r.name, r.dependsOn⟩, ⟨r'.name, r'.dependsOn⟩, ?_, ?_, hd⟩
  · rw [List.getElem?_map, hr]
    rfl
  · rw [List.getElem?_map, hr']
    rfl

theorem Depends.lt (table : posts? rs = .ok S.posts) (h : S.Depends q p) : p < q := by
  induction h with
  | single direct => exact lt_of_mem_needs table direct
  | tail _ direct ih => exact Nat.lt_trans (lt_of_mem_needs table direct) ih

end Setup

end Supervision
