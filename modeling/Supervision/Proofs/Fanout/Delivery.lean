import Mathlib.Data.List.Basic
import Supervision.Proofs.Fanout.Emission

/-!
# What reaches a subscriber

A worker is offered the events in some positions of a record, one after the other. As long as its
subscriber does not take it down, its queue refuses an event only where there is no room, and hands
on whatever it took, in order and once (`Worker.IsSupplied`). So nothing is lost without a trace:
a position that was offered is one that the subscriber gets (`Worker.got`) or one of a refusal, and
every refusal is reported once (`Fanout.reports_emit_of_alive`).
-/

namespace Supervision

/-- The subscriber never takes its worker down: whatever it does with an event, it has begun to
handle it. -/
def Subscriber.IsMild (s : Subscriber) : Prop := ∀ k e, s.react k e ≠ .refuses

namespace Worker

/-- The worker was offered the events in these positions of the record; what its queue took is with
its subscriber or still waits, and it refused nothing but for want of room. -/
structure IsSupplied (sent : Array Event) (ps : List Nat) (closed : Bool) (w : Worker) : Prop where
  offers : w.offers.toList.map (some ·.event) = ps.map (sent[·]?)
  refusals : ∀ o ∈ w.offers, o.refusal ≠ some .closed
  accepted : w.accepted = w.taken.toList ++ w.queue
  alive : w.stage ≠ .dead
  ended : w.stage = .ended → w.queue = [] ∧ closed = true

namespace IsSupplied

variable {sent sent' : Array Event} {ps : List Nat} {closed : Bool} {w w' : Worker} {s : Subscriber}

theorem fresh (sent : Array Event) : IsSupplied sent [] false {} :=
  ⟨rfl, by simp, rfl, by simp, by simp⟩

theorem congr (h : w.IsSupplied sent ps closed) (same : ∀ p ∈ ps, sent'[p]? = sent[p]?) :
    w.IsSupplied sent' ps closed :=
  { h with offers := h.offers.trans (List.map_congr_left fun p mem ↦ (same p mem).symm) }

theorem close (h : w.IsSupplied sent ps closed) : w.IsSupplied sent ps true :=
  { h with ended := fun ended ↦ ⟨(h.ended ended).1, rfl⟩ }

/-! ### Offers and steps -/

theorem isOver_eq_false (h : w.IsSupplied sent ps false) : w.isOver = false := by
  rw [isOver]
  split
  · exact absurd (h.ended ‹_›).2 Bool.false_ne_true
  · exact absurd ‹_› h.alive
  · rfl

/-- Whoever is over has handed everything on. -/
theorem queue_eq_nil (h : w.IsSupplied sent ps closed) (gone : w.isOver = true) :
    w.queue = [] := by
  rw [isOver] at gone
  split at gone
  · exact (h.ended ‹_›).1
  · exact absurd ‹_› h.alive
  · cases gone

theorem offer (h : w.IsSupplied sent ps false) (room : Nat) {p : Nat} {e : Event}
    (at_ : sent[p]? = some e) : (w.offer room e).2.IsSupplied sent (ps ++ [p]) false where
  offers := by
    show (w.offers.push _).toList.map _ = _
    rw [Array.toList_push, List.map_append, List.map_append, h.offers, List.map_singleton,
      List.map_singleton, at_]
  refusals o mem := by
    rcases Array.mem_push.mp mem with mem | rfl
    · exact h.refusals o mem
    · show w.refusal? room ≠ _
      rw [refusal?, h.isOver_eq_false, if_neg Bool.false_ne_true]
      split <;> simp
  accepted := by
    rw [accepted_offer, queue_offer, h.accepted]
    show _ = w.taken.toList ++ _
    split
    · rw [List.append_assoc]
    · rfl
  alive := h.alive
  ended ended := absurd (h.ended ended).2 Bool.false_ne_true

/-- No step of the worker loses anything, unless its subscriber takes it down. -/
theorem stride {now : Nat} {reports : List Event} (h : w.IsSupplied sent ps closed)
    (mild : s.IsMild) (stride : w.Stride s now closed w' reports) :
    w'.IsSupplied sent ps closed := by
  have accepted : w'.accepted = w.accepted := by rw [Worker.accepted, Worker.accepted, stride.offers]
  refine ⟨stride.offers ▸ h.offers, stride.offers ▸ h.refusals, ?_, ?_, ?_⟩
  · rw [accepted, h.accepted]
    cases stride with
    | dies at_ next reacts => exact absurd reacts (mild _ _)
    | begins at_ next | handles at_ next | panics at_ next =>
      rw [next, List.append_cons, Array.toList_push]
    | rests | ends | finishes | breaks => rfl
  · cases stride with
    | dies at_ next reacts => exact absurd reacts (mild _ _)
    | rests => exact h.alive
    | ends | begins | handles | panics | finishes | breaks => simp
  · cases stride with
    | dies at_ next reacts => exact absurd reacts (mild _ _)
    | rests => exact h.ended
    | ends at_ empty closes => exact fun _ ↦ ⟨empty, closes⟩
    | begins | handles | panics | finishes | breaks => simp

end IsSupplied

/-! ### Positions -/

/-- Those of the positions whose events the queue took. -/
def got (ps : List Nat) (w : Worker) : List Nat :=
  ((ps.zip w.offers.toList).filter (·.2.refusal.isNone)).map (·.1)

namespace IsSupplied

variable {sent : Array Event} {ps : List Nat} {closed : Bool} {w : Worker}

theorem map_fst_zip (h : w.IsSupplied sent ps closed) :
    (ps.zip w.offers.toList).map (·.1) = ps := by
  have same := congrArg List.length h.offers
  rw [List.length_map, List.length_map] at same
  exact List.map_fst_zip (Nat.le_of_eq same.symm)

theorem got_sublist (h : w.IsSupplied sent ps closed) : (w.got ps).Sublist ps := by
  have some_ : (w.got ps).Sublist ((ps.zip w.offers.toList).map (·.1)) := List.filter_sublist.map _
  rwa [h.map_fst_zip] at some_

/-- The subscriber gets the events in these positions. -/
theorem map_got (h : w.IsSupplied sent ps closed) :
    (w.got ps).map (sent[·]?) = w.accepted.map some := by
  have offers := h.offers
  rw [got, Worker.accepted]
  clear h
  generalize w.offers.toList = os at offers ⊢
  induction os generalizing ps with
  | nil => rw [List.zip_nil_right]; rfl
  | cons o os ih =>
    cases ps with
    | nil => cases offers
    | cons p ps =>
      obtain ⟨first, rest⟩ := List.cons.inj offers
      rw [List.zip_cons_cons, List.filter_cons, List.filter_cons]
      split
      · rw [List.map_cons, List.map_cons, List.map_cons, List.map_cons, ih rest]
        exact congrArg (· :: _) first.symm
      · exact ih rest

/-- A position that was offered is one that the subscriber gets, or there was no room for it. -/
theorem mem_got_or (h : w.IsSupplied sent ps closed) {p : Nat} (mem : p ∈ ps) :
    p ∈ w.got ps ∨ ∃ o, (p, o) ∈ ps.zip w.offers.toList ∧ o.refusal = some .full := by
  rw [← h.map_fst_zip, List.mem_map] at mem
  obtain ⟨⟨p, o⟩, both, rfl⟩ := mem
  have offered : o ∈ w.offers := Array.mem_toList_iff.mp (List.of_mem_zip both).2
  cases refusal : o.refusal with
  | none =>
    exact .inl (List.mem_map.mpr ⟨(p, o), List.mem_filter.mpr ⟨both, by simp [refusal]⟩, rfl⟩)
  | some why =>
    cases why with
    | full => exact .inr ⟨o, both, refusal⟩
    | closed => exact absurd refusal (h.refusals o offered)

end IsSupplied

end Worker

/-! ### Refusals are reported -/

namespace Fanout

variable {subs : Array Subscriber} {f : Fanout} {e : Event}

/-- The subscribers whose queues are full, in order. -/
def full (subs : Array Subscriber) (f : Fanout) : List Subscriber :=
  (List.range subs.size).filterMap fun i ↦
    (subs[i]?).filter fun s ↦ (f.workers[i]?).any (s.queueRoom ≤ ·.queue.length)

/-- **Every full queue is reported once**, unless the event is itself the report of one. -/
theorem reports_emit_of_alive (size : f.workers.size = subs.size)
    (alive : ∀ (i : Nat) w, f.workers[i]? = some w → w.isOver = false) :
    (f.emit subs e).2 =
      if e.kind = .subscriberOverflow then []
      else (f.full subs).map fun s ↦ .overflow s.name "full" := by
  rw [reports_emit, size]
  by_cases loud : e.kind = .subscriberOverflow
  · rw [if_pos loud, List.flatMap_eq_nil_iff]
    intro i _
    rw [offer]
    split
    · simp only [loud]
      split <;> rfl
    · rfl
  · rw [if_neg loud, full, List.map_filterMap, List.filterMap_eq_flatMap_toList]
    refine List.flatMap_congr fun i mem ↦ ?_
    have inside : i < subs.size := List.mem_range.mp mem
    have at_ : subs[i]? = some subs[i] := Array.getElem?_eq_getElem inside
    have here : f.workers[i]? = some f.workers[i] := Array.getElem?_eq_getElem (size ▸ inside)
    have refusal : f.workers[i].refusal? subs[i].queueRoom =
        if f.workers[i].queue.length < subs[i].queueRoom then none else some .full := by
      rw [Worker.refusal?, alive i _ here, if_neg Bool.false_ne_true]
    rw [offer, at_, here, Option.filter_some, Option.any_some]
    by_cases room : f.workers[i].queue.length < subs[i].queueRoom
    · simp [Worker.offer, refusal, room, Nat.not_le.mpr room]
    · simp [Worker.offer, refusal, room, Nat.not_lt.mp room, loud, Refusal.word]

end Fanout

end Supervision
