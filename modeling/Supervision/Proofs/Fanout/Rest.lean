import Supervision.Proofs.Fanout.Bound

/-!
# When a circuit comes to rest

An overflow of an overflow is not reported, so overflows cannot feed themselves. Panics can: the
report of a panic goes to all the subscribers, and one that panics over it causes the next report.
So a circuit that gets nothing more from outside comes to rest exactly when the echoes come to an
end (`Circuit.comes_to_rest_iff`), and one subscriber that panics over everything is enough to keep
it busy for good, over a single event (`Circuit.echo_never_rests`).

That a circuit without echoes comes to rest follows from two bounds. What is published is bounded by
what came from outside and by the echoes (`Balance.size_le`), and the turns of use are bounded by
what is published (`Balance.used_le`). So they come to an end, and in a fair run nothing can be on
its way after that.
-/

namespace Supervision.Circuit

variable {subs : Array Subscriber} {room : Nat} {run : Nat → CircuitMove}

/-! ### Counts that stop growing -/

/-- What happens no more from some move on has happened only so often. -/
theorem tally_le_of_ends {p : Circuit → CircuitMove → Bool} {K : Nat}
    (h : ∀ k ≥ K, p (after subs room run k) (run k) = false) (k : Nat) :
    tally subs room run p k ≤ K := by
  suffices tally subs room run p k ≤ min k K from this.trans (Nat.min_le_right k K)
  induction k with
  | zero => exact Nat.zero_le _
  | succ k ih =>
    rw [tally_succ]
    rcases Nat.lt_or_ge k K with before | after
    · have := Bool.toNat_le (p (Circuit.after subs room run k) (run k))
      omega
    · rw [h k after, Bool.toNat_false]
      omega

/-- What has happened only so often happens no more from some move on. -/
theorem ends_of_tally_le {p : Circuit → CircuitMove → Bool} {B : Nat}
    (h : ∀ k, tally subs room run p k ≤ B) :
    ∃ K, ∀ k ≥ K, p (after subs room run k) (run k) = false := by
  by_contra goesOn
  have again (K : Nat) : ∃ k ≥ K, p (after subs room run k) (run k) = true := by
    by_contra none
    exact goesOn ⟨K, fun k ge ↦ Bool.eq_false_iff.mpr fun yes ↦ none ⟨k, ge, yes⟩⟩
  have grows (m n : Nat) (le : m ≤ n) : tally subs room run p m ≤ tally subs room run p n :=
    (List.range_sublist.mpr le).countP_le
  have often (n : Nat) : ∃ k, n ≤ tally subs room run p k := by
    induction n with
    | zero => exact ⟨0, Nat.zero_le _⟩
    | succ n ih =>
      obtain ⟨k, many⟩ := ih
      obtain ⟨j, ge, yes⟩ := again k
      refine ⟨j + 1, ?_⟩
      have := grows k j ge
      rw [tally_succ, yes, Bool.toNat_true]
      omega
  obtain ⟨k, many⟩ := often (B + 1)
  have := h k
  omega

/-! ### Rest -/

/-- Nobody panics over anything while everything is quiet. -/
theorem IsQuiet.isEcho {c : Circuit} (h : c.IsQuiet) (m : CircuitMove) :
    m.isEcho subs c = false := by
  cases m with
  | publish | relay | pass => rfl
  | work i =>
    show c.isEchoAt subs i = false
    rw [isEchoAt]
    split
    · rename_i s w _ here
      obtain ⟨empty, -⟩ := h.workers w (Array.mem_of_getElem? here)
      rw [empty]
      split
      · rename_i next
        cases next
      · rfl
    · rfl

/-- **When a circuit comes to rest.** What it publishes is bounded by what came from outside and by
the echoes. So, when nothing more comes from outside, it comes to rest exactly when the echoes come
to an end. -/
theorem comes_to_rest_iff (subs : Array Subscriber) (room : Nat) (run : Nat → CircuitMove)
    (fair : IsFair subs room run) (few : ∃ K, ∀ k ≥ K, (run k).isPublish = false) :
    (∀ k, (after subs room run k).bus.size ≤
      (subs.size + 1) *
        ((subs.size + 1) * published subs room run k + echoes subs room run k)) ∧
    ((∃ K, ∀ k ≥ K, (after subs room run k).IsQuiet) ↔
      ∃ K, ∀ k ≥ K, (run k).isEcho subs (after subs room run k) = false) := by
  have balance := balance_after subs room run
  refine ⟨fun k ↦ (balance k).size_le, ?_, ?_⟩
  · rintro ⟨K, quiet⟩
    exact ⟨K, fun k ge ↦ (quiet k ge).isEcho (run k)⟩
  · rintro ⟨E, silent⟩
    obtain ⟨A, shut⟩ := few
    let n := subs.size + 1
    have bounded (k : Nat) : turnsOfUse subs room run k ≤ (2 * subs.size + 1) * (n * (n * A + E)) :=
      calc turnsOfUse subs room run k
        _ ≤ (2 * subs.size + 1) * (after subs room run k).bus.size := (balance k).used_le
        _ ≤ (2 * subs.size + 1) *
            (n * (n * published subs room run k + echoes subs room run k)) :=
          Nat.mul_le_mul_left _ (balance k).size_le
        _ ≤ (2 * subs.size + 1) * (n * (n * A + E)) := by
          refine Nat.mul_le_mul_left _ <| Nat.mul_le_mul_left _ <| Nat.add_le_add ?_ ?_
          · exact Nat.mul_le_mul_left _ (tally_le_of_ends shut k)
          · exact tally_le_of_ends silent k
    obtain ⟨K, idle⟩ := ends_of_tally_le bounded
    refine ⟨K, fun k ge ↦ ?_⟩
    by_contra busy
    obtain ⟨j, later, used⟩ := fair k busy
    exact Bool.false_ne_true ((idle j (ge.trans later)).symm.trans used)

/-! ### A subscriber that panics once -/

/-- Panics over its first event only. -/
def startled : Subscriber where
  name := "startled"
  room := 1
  react n _ := if n = 0 then .panics 0 (.text "oh") else .returns 0

/-- One event from outside, and whoever has something to do has a turn. -/
def startledRun : Nat → CircuitMove
  | 0 => .publish (.new .shutdownRequested)
  | 1 | 3 => .relay
  | 2 | 4 => .work 0
  | _ => .relay

theorem startled_after (k : Nat) :
    after #[startled] 4 startledRun (k + 5) = after #[startled] 4 startledRun 5 := by
  induction k with
  | zero => rfl
  | succ k ih =>
    show (after #[startled] 4 startledRun (k + 5)).relay #[startled] = _
    rw [ih]
    rfl

/-- The event and the report of the panic are all that is published. -/
theorem startled_comes_to_rest :
    (∃ K, ∀ k ≥ K, (after #[startled] 4 startledRun k).IsQuiet) ∧
      (after #[startled] 4 startledRun 5).bus.size = 2 := by
  have quiet (k : Nat) (ge : k ≥ 5) : (after #[startled] 4 startledRun k).IsQuiet := by
    obtain ⟨k, rfl⟩ := Nat.exists_eq_add_of_le' ge
    rw [startled_after]
    have idle : ∀ w ∈ (after #[startled] 4 startledRun 5).fanout.workers.toList,
        w.queue = [] ∧ w.timer? = none := by decide
    exact ⟨by decide, fun w mem ↦ idle w (Array.mem_toList_iff.mpr mem)⟩
  have fair : IsFair #[startled] 4 startledRun := by
    intro k busy
    match k with
    | 0 => exact ⟨1, by decide, by decide⟩
    | 1 => exact ⟨1, by decide, by decide⟩
    | 2 => exact ⟨2, by decide, by decide⟩
    | 3 => exact ⟨3, by decide, by decide⟩
    | 4 => exact ⟨4, by decide, by decide⟩
    | k + 5 => exact absurd (quiet (k + 5) (Nat.le_add_left 5 k)) busy
  have few (k : Nat) (ge : k ≥ 5) : startledRun k = .relay := by
    obtain ⟨k, rfl⟩ := Nat.exists_eq_add_of_le' ge
    rfl
  obtain ⟨-, rests⟩ := comes_to_rest_iff #[startled] 4 startledRun fair
    ⟨5, fun k ge ↦ by rw [few k ge]; rfl⟩
  exact ⟨rests.mpr ⟨5, fun k ge ↦ by rw [few k ge]; rfl⟩, by decide⟩

/-! ### A subscriber that panics over everything -/

/-- Panics over whatever it gets. -/
def echo : Subscriber where
  name := "echo"
  room := 1
  react _ _ := .panics 0 (.text "oh")

/-- One event from outside; then the relay and the worker in turn. -/
def echoRun : Nat → CircuitMove
  | 0 => .publish (.new .shutdownRequested)
  | k + 1 => if k % 2 = 0 then .relay else .work 0

/-- One event is on its way, and so many panics have been reported: the event is on the bus, or it
is in the queue. -/
structure IsSounding (queued : Bool) (n : Nat) (c : Circuit) : Prop where
  room : c.bus.room = 1
  size : c.bus.size = n + 1
  next : c.next = n + queued.toNat
  workers : ∃ e w, c.bus.sent[n]? = some e ∧ w.stage = .receiving ∧
    w.queue = (if queued then [e] else []) ∧ c.fanout = { workers := #[w] }

/-- The relay puts the event into the queue. -/
theorem IsSounding.relay {n : Nat} {c : Circuit} (h : c.IsSounding false n) :
    (c.relay #[echo]).IsSounding true n := by
  obtain ⟨room, size, next, e, ⟨offers, queue, taken, handled, stage⟩, at_, free, empty, alone⟩ := h
  obtain rfl : stage = .receiving := free
  obtain rfl : queue = [] := empty
  have received : c.bus.receive c.next = .event e (n + 1) := by
    have here : c.next = n := next
    rw [here, Bus.receive, room, size, if_neg (Nat.lt_irrefl _), at_]
  have offered : c.fanout.emit #[echo] e =
      ({ workers := #[⟨offers.push ⟨e, none⟩, [e], taken, handled, .receiving⟩] }, []) := by
    rw [alone]
    rfl
  rw [Circuit.relay, received]
  show (Circuit.publish (c.fanout.emit #[echo] e).2
    { c with next := n + 1, fanout := (c.fanout.emit #[echo] e).1 }).IsSounding true n
  rw [offered]
  exact ⟨room, size, rfl, e, _, at_, rfl, rfl, rfl⟩

/-- The worker takes the event, and its subscriber panics over it. -/
theorem IsSounding.work {n : Nat} {c : Circuit} (h : c.IsSounding true n) :
    (c.work #[echo] 0).IsSounding false (n + 1) := by
  obtain ⟨room, size, next, e, ⟨offers, queue, taken, handled, stage⟩, at_, free, full, alone⟩ := h
  obtain rfl : stage = .receiving := free
  obtain rfl : queue = [e] := full
  have stepped : c.fanout.step #[echo] c.now 0 =
      ({ workers := #[⟨offers, [], taken.push e, handled, .receiving⟩] },
        [.panicked "echo" "oh"]) := by
    rw [alone]
    rfl
  rw [Circuit.work, stepped]
  have last : (c.bus.sent.push (.panicked "echo" "oh"))[n + 1]? = some (.panicked "echo" "oh") := by
    rw [← size]
    exact Array.getElem?_push_size
  exact ⟨room, (Bus.size_publish _ _).trans (congrArg (· + 1) size), next, _, _, last, rfl, rfl, rfl⟩

/-- With an event on its way nothing is quiet. -/
theorem IsSounding.not_isQuiet {queued : Bool} {n : Nat} {c : Circuit}
    (h : c.IsSounding queued n) : ¬ c.IsQuiet := by
  intro quiet
  obtain ⟨room, size, next, e, w, -, -, queue, alone⟩ := h
  cases queued with
  | false =>
    have through : c.bus.size ≤ c.next := Bus.receive_eq_nothing_iff.mp quiet.bus
    rw [size, next, Bool.toNat_false] at through
    omega
  | true =>
    have here : w ∈ c.fanout.workers := by
      rw [alone]
      exact Array.mem_singleton.mpr rfl
    exact absurd ((quiet.workers w here).1.symm.trans queue) (List.cons_ne_nil _ _).symm

theorem isSounding_after (n : Nat) :
    (after #[echo] 1 echoRun (2 * n + 1)).IsSounding false n ∧
      (after #[echo] 1 echoRun (2 * n + 2)).IsSounding true n := by
  have relays (n : Nat) (h : (after #[echo] 1 echoRun (2 * n + 1)).IsSounding false n) :
      (after #[echo] 1 echoRun (2 * n + 2)).IsSounding true n := by
    have turn : echoRun (2 * n + 1) = .relay := if_pos (Nat.mul_mod_right 2 n)
    rw [after, turn]
    exact h.relay
  induction n with
  | zero =>
    have first : (after #[echo] 1 echoRun 1).IsSounding false 0 :=
      ⟨rfl, rfl, rfl, _, {}, rfl, rfl, rfl, rfl⟩
    exact ⟨first, relays 0 first⟩
  | succ n ih =>
    have works : (after #[echo] 1 echoRun (2 * (n + 1) + 1)).IsSounding false (n + 1) := by
      have turn : echoRun (2 * n + 2) = .work 0 := if_neg (by omega)
      show ((after #[echo] 1 echoRun (2 * n + 2)).move #[echo] (echoRun (2 * n + 2))).IsSounding
        false (n + 1)
      rw [turn]
      exact ih.2.work
    exact ⟨works, relays (n + 1) works⟩

/-- **One event is enough**: the run is fair and nothing more comes from outside, but nothing is ever
quiet again, and there is no end to what is published. -/
theorem echo_never_rests :
    IsFair #[echo] 1 echoRun ∧ (∀ k > 0, (echoRun k).isPublish = false) ∧
      (∀ k > 0, ¬ (after #[echo] 1 echoRun k).IsQuiet) ∧
      ∀ n, ∃ k, n ≤ (after #[echo] 1 echoRun k).bus.size := by
  refine ⟨fun k _ ↦ ?_, fun k pos ↦ ?_, fun k pos ↦ ?_, fun n ↦ ⟨2 * n + 1, ?_⟩⟩
  · -- Whenever the relay has a turn, the event is on the bus.
    have turn : echoRun (2 * k + 1) = .relay := if_pos (Nat.mul_mod_right 2 k)
    have sounding := (isSounding_after k).1
    refine ⟨2 * k + 1, by omega, ?_⟩
    rw [turn]
    refine decide_eq_true fun nothing ↦ ?_
    have through := Bus.receive_eq_nothing_iff.mp nothing
    rw [sounding.size, sounding.next, Bool.toNat_false] at through
    omega
  · obtain ⟨k, rfl⟩ := Nat.exists_eq_add_one_of_ne_zero (Nat.ne_of_gt pos)
    rw [echoRun]
    split <;> rfl
  · obtain ⟨n, rfl | rfl⟩ : ∃ n, k = 2 * n + 1 ∨ k = 2 * n + 2 :=
      ⟨(k - 1) / 2, by omega⟩
    · exact (isSounding_after n).1.not_isQuiet
    · exact (isSounding_after n).2.not_isQuiet
  · rw [(isSounding_after n).1.size]
    exact Nat.le_succ n

end Supervision.Circuit
