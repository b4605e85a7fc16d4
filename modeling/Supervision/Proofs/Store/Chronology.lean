import Mathlib.Data.List.Sort
import Mathlib.Data.Prod.Lex
import Supervision.Store.Summary
import Supervision.Store.Sweep

/-!
# Records in the order of time

Records are ordered by the moment at which they began, and those of one moment by their numbers. The
place of a record in this order is a pair (`RecordRow.place`); `older` and `later` compare places,
the one upwards and the other downwards. Sorting by a comparison of keys orders the keys
(`pairwise_mergeSort_of_key`).
-/

namespace Supervision.Store

namespace RecordRow

/-- The place of a record in the order of time: when it began, and then its number. -/
def place (r : RecordRow) : Int ×ₗ Int := toLex (r.startedAt, r.id)

variable {a b : RecordRow}

theorem place_le_iff :
    a.place ≤ b.place ↔ a.startedAt < b.startedAt ∨ a.startedAt = b.startedAt ∧ a.id ≤ b.id :=
  Prod.Lex.toLex_le_toLex

theorem older_iff : a.older b = true ↔ a.place ≤ b.place := by
  rw [older, place_le_iff, Bool.or_eq_true, Bool.and_eq_true, beq_iff_eq, decide_eq_true_iff,
    decide_eq_true_iff]

theorem later_iff : a.later b = true ↔ b.place ≤ a.place := by
  rw [later, place_le_iff, Bool.or_eq_true, Bool.and_eq_true, beq_iff_eq, decide_eq_true_iff,
    decide_eq_true_iff, eq_comm]

/-- Records of one place began at the same moment and have the same number. -/
theorem place_eq_iff : a.place = b.place ↔ a.startedAt = b.startedAt ∧ a.id = b.id := by
  rw [place, place, toLex_inj, Prod.mk.injEq]

end RecordRow

/-- Rows sorted by a comparison of keys have their keys in order. -/
theorem pairwise_mergeSort_of_key {ρ β : Type} [LinearOrder β] (key : ρ → β) {le : ρ → ρ → Bool}
    (compares : ∀ a b, le a b = true ↔ key a ≤ key b) (rows : List ρ) :
    (rows.mergeSort le).Pairwise fun a b ↦ key a ≤ key b := by
  refine (List.pairwise_mergeSort (fun a b c ab bc ↦ ?_) (fun a b ↦ ?_) rows).imp
    fun {a b} ↦ (compares a b).mp
  · exact (compares a c).mpr (((compares a b).mp ab).trans ((compares b c).mp bc))
  · rw [Bool.or_eq_true, compares, compares]
    exact le_total (key a) (key b)

end Supervision.Store
