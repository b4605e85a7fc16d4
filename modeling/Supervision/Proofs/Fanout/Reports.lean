import Mathlib.Algebra.BigOperators.Group.Finset.Basic
import Mathlib.Algebra.Order.BigOperators.Group.Finset
import Supervision.Fanout.Loop
import Supervision.Proofs.Fanout.Emission

/-!
# How much a circuit reports

A worker reports every panic of its subscriber once, though maybe later (`Worker.Stride.balance`),
and its queue reports the refusal of everything but an overflow. Both are bounded by what the worker
was fed: it takes nothing that was not on the record (`Worker.IsFedBy`), so all but so many of its
panics are over reports of the circuit itself (`Worker.IsFedBy.panicsOver_le`).
-/

namespace Supervision

/-! ### What a worker adds -/

namespace Worker

variable (p : Event → Bool) (s : Subscriber) (w : Worker)

/-- How many of the events that were taken, of some kind, are ones over which the subscriber
panics. -/
def panicsOver : Nat := w.taken.toList.zipIdx.countP fun x ↦ p x.1 && (s.react x.2 x.1).isPanic

/-- The report of a panic that has not come yet. -/
def owed : Nat :=
  match w.stage with
  | .handling _ _ (some _) => 1
  | _ => 0

/-- It is over an event. -/
def busy : Nat :=
  match w.stage with
  | .handling _ _ _ => 1
  | _ => 0

/-- How many refusals were reported. -/
def overflows : Nat :=
  w.offers.toList.countP fun o ↦ o.refusal.isSome && o.event.kind ≠ .subscriberOverflow

variable {p s w}

theorem panicsOver_of_taken {w' : Worker} (h : w'.taken = w.taken) :
    w'.panicsOver p s = w.panicsOver p s := by
  rw [panicsOver, panicsOver, h]

theorem panicsOver_of_push {w' : Worker} {e : Event} (h : w'.taken = w.taken.push e) :
    w'.panicsOver p s =
      w.panicsOver p s + (p e && (s.react w.taken.size e).isPanic).toNat := by
  rw [panicsOver, panicsOver, h, Array.toList_push, List.zipIdx_append, List.countP_append]
  congr 1
  rw [List.zipIdx_singleton, List.countP_singleton, Nat.zero_add, Array.length_toList]
  cases p e && (s.react w.taken.size e).isPanic <;> rfl

theorem owed_of_receiving (h : w.stage = .receiving) : w.owed = 0 := by
  rw [owed, h]

/-- A worker that takes an event reports a panic over it, or owes the report. -/
theorem balance_of_push {w' : Worker} {e : Event} {n : Nat} (free : w.stage = .receiving)
    (taken : w'.taken = w.taken.push e)
    (told : n + w'.owed = (s.react w.taken.size e).isPanic.toNat) :
    n + w'.owed + w.panicsOver (fun _ ↦ true) s =
      w.owed + w'.panicsOver (fun _ ↦ true) s := by
  rw [owed_of_receiving free, panicsOver_of_push taken, Bool.true_and, told]
  omega

/-- Every panic is reported, at once or when the handling comes to its end. -/
theorem Stride.balance {now : Nat} {closed : Bool} {w' : Worker} {reports : List Event}
    (h : w.Stride s now closed w' reports) :
    reports.length + w'.owed + w.panicsOver (fun _ ↦ true) s =
      w.owed + w'.panicsOver (fun _ ↦ true) s := by
  cases h with
  | rests => rw [List.length_nil, Nat.zero_add]
  | ends at_ =>
    rw [owed_of_receiving at_]
    rfl
  | dies at_ next reacts => exact balance_of_push at_ rfl (by rw [reacts]; rfl)
  | @begins e rest reaction at_ next reacts lasts =>
    refine balance_of_push at_ rfl ?_
    rw [reacts]
    cases reaction with
    | refuses => exact absurd lasts (Nat.lt_irrefl 0)
    | returns | panics => rfl
  | handles at_ next reacts => exact balance_of_push at_ rfl (by rw [reacts]; rfl)
  | panics at_ next reacts => exact balance_of_push at_ rfl (by rw [reacts]; rfl)
  | finishes at_ =>
    have none_owed : w.owed = 0 := by rw [owed, at_]
    rw [none_owed]
    rfl
  | breaks at_ =>
    have one_owed : w.owed = 1 := by rw [owed, at_]
    rw [one_owed]
    rfl

/-- A turn of use takes an event or comes to the end of one. -/
theorem Stride.used {now : Nat} {closed : Bool} {w' : Worker} {reports : List Event}
    (h : w.Stride s now closed w' reports) (open_ : closed = false) :
    (w.isEnabled now closed).toNat + w'.busy + 2 * w.taken.size ≤ w.busy + 2 * w'.taken.size := by
  have enabled : (w.isEnabled now closed).toNat ≤ 1 := Bool.toNat_le _
  have busy_le (w : Worker) : w.busy ≤ 1 := by
    rw [busy]
    split <;> omega
  rcases h.taken with ⟨same, -⟩ | ⟨e, rest, at_, -, pushed, -⟩
  · cases h with
    | rests idle => rw [idle]; exact Nat.le_of_eq (congrArg (· + _) (Nat.zero_add _))
    | ends _ _ closes => exact absurd (open_.symm.trans closes) Bool.false_ne_true
    | finishes at_ =>
      have one : w.busy = 1 := by rw [busy, at_]
      rw [one]
      exact Nat.add_le_add_right enabled _
    | breaks at_ =>
      have one : w.busy = 1 := by rw [busy, at_]
      rw [one]
      exact Nat.add_le_add_right enabled _
    | dies | begins | handles | panics => exact absurd (congrArg Array.size same) (by simp)
  · have := busy_le w'
    rw [pushed, Array.size_push]
    omega

/-! ### What an offer adds -/

theorem overflows_offer (room : Nat) (e : Event) :
    (w.offer room e).2.overflows = w.overflows +
      ((w.refusal? room).isSome && e.kind ≠ .subscriberOverflow).toNat := by
  rw [overflows, overflows, offer, Array.toList_push, List.countP_append]
  rfl

/-! ### What a worker was fed -/

/-- What was taken and what waits was offered, and that was on the record, all in its order. -/
structure IsFedBy (sent : List Event) (w : Worker) : Prop where
  taken : (w.taken.toList ++ w.queue).Sublist (w.offers.toList.map (·.event))
  offers : (w.offers.toList.map (·.event)).Sublist sent

variable {sent more : List Event}

theorem IsFedBy.mono (h : w.IsFedBy sent) (le : sent.Sublist more) : w.IsFedBy more :=
  ⟨h.taken, h.offers.trans le⟩

theorem IsFedBy.offer (h : w.IsFedBy sent) (room : Nat) (e : Event) :
    (w.offer room e).2.IsFedBy (sent ++ [e]) := by
  have offers : (w.offer room e).2.offers.toList.map (·.event) =
      w.offers.toList.map (·.event) ++ [e] := by
    rw [Worker.offer, Array.toList_push, List.map_append]
    rfl
  refine ⟨?_, offers ▸ h.offers.append (.refl _)⟩
  rw [offers, queue_offer]
  show (w.taken.toList ++ _).Sublist _
  split
  · rw [← List.append_assoc]
    exact h.taken.append (.refl _)
  · exact h.taken.trans (List.sublist_append_left _ _)

theorem IsFedBy.stride {now : Nat} {closed : Bool} {w' : Worker} {reports : List Event}
    (h : w.IsFedBy sent) (stride : w.Stride s now closed w' reports) : w'.IsFedBy sent := by
  refine ⟨?_, stride.offers ▸ h.offers⟩
  rw [stride.offers]
  rcases stride.taken with ⟨taken, queue⟩ | ⟨e, rest, -, next, taken, queue⟩
  · rw [taken, queue]
    exact h.taken
  · have before := h.taken
    rw [next, List.append_cons] at before
    rw [taken, Array.toList_push]
    rcases queue with queue | queue
    · rw [queue]
      exact before
    · rw [queue, List.append_nil]
      exact (List.sublist_append_left _ rest).trans before

theorem IsFedBy.size_taken_le (h : w.IsFedBy sent) : w.taken.size ≤ sent.length :=
  calc w.taken.size
    _ = w.taken.toList.length := w.taken.length_toList.symm
    _ ≤ sent.length :=
      ((List.sublist_append_left _ w.queue).trans (h.taken.trans h.offers)).length_le

theorem IsFedBy.overflows_le (h : w.IsFedBy sent) :
    w.overflows ≤ sent.countP fun e ↦ e.kind ≠ .subscriberOverflow :=
  calc w.overflows
    _ ≤ w.offers.toList.countP fun o ↦ o.event.kind ≠ .subscriberOverflow :=
      List.countP_mono_left fun o _ both ↦ (Bool.and_eq_true _ _ ▸ both).2
    _ = (w.offers.toList.map (·.event)).countP fun e ↦ e.kind ≠ .subscriberOverflow := by
      rw [List.countP_map]
      rfl
    _ ≤ _ := h.offers.countP_le

/-- A panic over an event is a panic over a report of the circuit, or one of few. -/
theorem IsFedBy.panicsOver_le (h : w.IsFedBy sent) (s : Subscriber) :
    w.panicsOver (fun _ ↦ true) s ≤
      w.panicsOver Event.isReport s + sent.countP (!·.isReport) := by
  have few : w.taken.toList.zipIdx.countP (fun x ↦ !x.1.isReport) ≤ sent.countP (!·.isReport) :=
    calc w.taken.toList.zipIdx.countP (fun x ↦ !x.1.isReport)
      _ = (w.taken.toList.zipIdx.map Prod.fst).countP (!·.isReport) := by
        rw [List.countP_map]
        rfl
      _ = w.taken.toList.countP (!·.isReport) := by rw [List.zipIdx_map_fst]
      _ ≤ sent.countP (!·.isReport) :=
        ((List.sublist_append_left _ w.queue).trans (h.taken.trans h.offers)).countP_le
  refine le_trans ?_ (Nat.add_le_add_left few _)
  rw [panicsOver, panicsOver]
  induction w.taken.toList.zipIdx with
  | nil => exact Nat.le_refl _
  | cons x rest ih =>
    simp only [List.countP_cons, Bool.true_and] at ih ⊢
    cases x.1.isReport <;> cases (s.react x.2 x.1).isPanic <;> simp <;> omega

end Worker

end Supervision
