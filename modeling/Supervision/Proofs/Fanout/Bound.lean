import Supervision.Proofs.Fanout.Reports

/-!
# How much a circuit publishes

Whatever is on the bus came from outside, or is the report of a panic or of a refusal. Every move of
the circuit keeps these accounts (`Circuit.Balance`), in which reports are counted over all workers
(`Fanout.total`). The refusal of an overflow is not reported, so the refusals are bounded by the
events from outside and the panics (`Circuit.Balance.overflows_le`), and of these only panics over
reports are not bounded by what came from outside (`Circuit.Balance.panics_le`).
-/

namespace Supervision

open Finset

/-! ### Sums over the workers -/

namespace Fanout

variable {m d : Subscriber → Worker → Nat} {subs : Array Subscriber} {f : Fanout}

/-- A count at one place. -/
def countAt (m : Subscriber → Worker → Nat) (subs : Array Subscriber) (f : Fanout) (i : Nat) :
    Nat :=
  match subs[i]?, f.workers[i]? with
  | some s, some w => m s w
  | _, _ => 0

/-- A count over all workers. -/
def total (m : Subscriber → Worker → Nat) (subs : Array Subscriber) (f : Fanout) : Nat :=
  ∑ i ∈ range subs.size, f.countAt m subs i

theorem countAt_of_some {i : Nat} {s : Subscriber} {w : Worker} (at_ : subs[i]? = some s)
    (here : f.workers[i]? = some w) : f.countAt m subs i = m s w := by
  rw [countAt, at_, here]

theorem countAt_le {b : Nat} {i : Nat}
    (h : ∀ s w, subs[i]? = some s → f.workers[i]? = some w → m s w ≤ d s w + b) :
    f.countAt m subs i ≤ f.countAt d subs i + b := by
  rw [countAt, countAt]
  split
  · exact h _ _ ‹_› ‹_›
  · exact Nat.zero_le _

/-- Where every worker counts at most so much more. -/
theorem total_le {b : Nat}
    (h : ∀ (i : Nat) s w, subs[i]? = some s → f.workers[i]? = some w → m s w ≤ d s w + b) :
    f.total m subs ≤ f.total d subs + subs.size * b :=
  calc f.total m subs
    _ ≤ ∑ i ∈ range subs.size, (f.countAt d subs i + b) :=
      sum_le_sum fun i _ ↦ countAt_le (h i)
    _ = f.total d subs + subs.size * b := by
      rw [sum_add_distrib, sum_const, card_range]
      rfl

theorem total_zero : f.total (fun _ _ ↦ 0) subs = 0 :=
  sum_eq_zero fun i _ ↦ by
    rw [countAt]
    split <;> rfl

/-- An emission adds to a count what the offers add. -/
theorem total_emit {e : Event} (h : ∀ s w, m s (w.offer s.queueRoom e).2 = m s w + d s w) :
    (f.emit subs e).1.total m subs = f.total m subs + f.total d subs := by
  rw [total, total, total, ← sum_add_distrib]
  refine sum_congr rfl fun i _ ↦ ?_
  rw [countAt, countAt, countAt, workers_emit]
  cases at_ : subs[i]? with
  | none => rfl
  | some s =>
    cases f.workers[i]? with
    | none => rfl
    | some w =>
      rw [Option.map_some, offered, at_]
      exact h s w

/-- A step of one worker changes a count by what it changes at this worker. -/
theorem total_set {f' : Fanout} {i : Nat} {s : Subscriber} {w w' : Worker}
    (at_ : subs[i]? = some s) (here : f.workers[i]? = some w)
    (after : f'.workers = f.workers.setIfInBounds i w') :
    f'.total m subs + m s w = f.total m subs + m s w' := by
  have inside : i ∈ range subs.size := mem_range.mpr (Array.getElem?_eq_some_iff.mp at_).1
  have here' : f'.workers[i]? = some w' := by
    rw [after, Array.getElem?_setIfInBounds_self_of_lt (Array.getElem?_eq_some_iff.mp here).1]
  have others : ∑ j ∈ (range subs.size).erase i, f'.countAt m subs j =
      ∑ j ∈ (range subs.size).erase i, f.countAt m subs j := by
    refine sum_congr rfl fun j mem ↦ ?_
    rw [countAt, countAt, after, Array.getElem?_setIfInBounds_ne (mem_erase.mp mem).1.symm]
  rw [total, total, ← add_sum_erase _ _ inside, ← add_sum_erase _ _ inside, others,
    countAt_of_some at_ here, countAt_of_some at_ here']
  omega

/-- There are as many reports as refusals, unless the event is itself the report of one. -/
theorem length_reports_emit {e : Event} (same : f.workers.size = subs.size) :
    (f.emit subs e).2.length =
      f.total (fun s w ↦
        ((w.refusal? s.queueRoom).isSome && e.kind ≠ .subscriberOverflow).toNat) subs := by
  rw [reports_emit, List.length_flatMap, same, total]
  show ((List.range subs.size).map _).sum = ((List.range subs.size).map _).sum
  congr 1
  refine List.map_congr_left fun i _ ↦ ?_
  rw [offer, countAt]
  cases subs[i]? with
  | none => rfl
  | some s =>
    cases f.workers[i]? with
    | none => rfl
    | some w =>
      simp only [Worker.offer]
      by_cases loud : e.kind = .subscriberOverflow
      · cases w.refusal? s.queueRoom <;> simp [loud]
      · cases w.refusal? s.queueRoom <;> simp [loud]

end Fanout

/-! ### The balance of a circuit -/

namespace Circuit

/-- Everything on the bus, oldest first. -/
def record (c : Circuit) : List Event := c.bus.sent.toList

variable {subs : Array Subscriber} {c : Circuit} {outside echoes used : Nat}

theorem size_bus (c : Circuit) : c.bus.size = c.record.length := Array.length_toList.symm

theorem getElem?_record (c : Circuit) (i : Nat) : c.record[i]? = c.bus.sent[i]? :=
  Array.getElem?_toList

theorem record_publish (events : List Event) (c : Circuit) :
    (c.publish events).record = c.record ++ events := by
  induction events generalizing c with
  | nil => exact (List.append_nil _).symm
  | cons e events ih =>
    show ((c.publish [e]).publish events).record = _
    rw [ih, List.append_cons]
    congr 1
    exact Array.toList_push

/-- Where every event on the bus comes from: so many came from outside, and the rest are reports of
panics and of refusals. `echoes` bounds the panics over reports, and `used` is how many turns were
of use. -/
structure Balance (subs : Array Subscriber) (outside echoes used : Nat) (c : Circuit) : Prop where
  size : c.fanout.workers.size = subs.size
  open_ : c.fanout.closed = false
  next : c.next ≤ c.record.length
  fed : ∀ (i : Nat) w, c.fanout.workers[i]? = some w → w.IsFedBy (c.record.take c.next)
  /-- What is no report came from outside. -/
  news : c.record.countP (!·.isReport) ≤ outside
  /-- What is no overflow came from outside, or tells of a panic. -/
  panics : c.record.countP (·.kind ≠ .subscriberOverflow) + c.fanout.total (fun _ w ↦ w.owed) subs ≤
    outside + c.fanout.total (fun s w ↦ w.panicsOver (fun _ ↦ true) s) subs
  /-- Whatever did not come from outside tells of a panic or of an overflow. -/
  all : c.record.length + c.fanout.total (fun _ w ↦ w.owed) subs ≤
    outside + c.fanout.total (fun s w ↦ w.panicsOver (fun _ ↦ true) s) subs +
      c.fanout.total (fun _ w ↦ w.overflows) subs
  echoes : c.fanout.total (fun s w ↦ w.panicsOver Event.isReport s) subs ≤ echoes
  /-- Whoever had a turn of use took something, or came to the end of it. -/
  used : used + c.fanout.total (fun _ w ↦ w.busy) subs ≤
    c.next + 2 * c.fanout.total (fun _ w ↦ w.taken.size) subs

theorem Balance.publish (h : c.Balance subs outside echoes used) (e : Event) :
    (c.publish [e]).Balance subs (outside + 1) echoes used := by
  have record : (c.publish [e]).record = c.record ++ [e] := record_publish [e] c
  have one_more (p : Event → Bool) : (c.record ++ [e]).countP p ≤ c.record.countP p + 1 := by
    rw [List.countP_append]
    exact Nat.add_le_add_left List.countP_le_length _
  refine { h with next := ?next, fed := ?fed, news := ?news, panics := ?panics, all := ?all }
  case next =>
    rw [record, List.length_append]
    exact Nat.le_add_right_of_le h.next
  case fed =>
    intro i w here
    rw [record]
    exact (h.fed i w here).mono ((List.prefix_append c.record [e]).take c.next).sublist
  case news =>
    rw [record]
    have := one_more (!·.isReport)
    have := h.news
    omega
  case panics =>
    rw [record]
    have := one_more (·.kind ≠ .subscriberOverflow)
    have := h.panics
    show _ + c.fanout.total (fun _ w ↦ w.owed) subs ≤ _ + c.fanout.total _ subs
    omega
  case all =>
    rw [record, List.length_append, List.length_singleton]
    have := h.all
    show _ + c.fanout.total (fun _ w ↦ w.owed) subs ≤
      _ + c.fanout.total _ subs + c.fanout.total _ subs
    omega

theorem isEchoAt_of_taken {i : Nat} {s : Subscriber} {w : Worker} {e : Event} {rest : List Event}
    (at_ : subs[i]? = some s) (here : c.fanout.workers[i]? = some w) (free : w.stage = .receiving)
    (next : w.queue = e :: rest) :
    c.isEchoAt subs i = (e.isReport && (s.react w.taken.size e).isPanic) := by
  simp only [isEchoAt, at_, here, free, next]

/-- What one worker does and reports. -/
theorem Balance.stride (h : c.Balance subs outside echoes used) {i : Nat} {s : Subscriber}
    {w w' : Worker} {reports : List Event} (at_ : subs[i]? = some s)
    (here : c.fanout.workers[i]? = some w) (stride : w.Stride s c.now c.fanout.closed w' reports) :
    (Circuit.publish reports { c with
      fanout := { c.fanout with workers := c.fanout.workers.setIfInBounds i w' } }).Balance subs
      outside (echoes + (c.isEchoAt subs i).toNat)
      (used + (w.isEnabled c.now c.fanout.closed).toNat) := by
  let f' := { c.fanout with workers := c.fanout.workers.setIfInBounds i w' }
  have changes (m : Subscriber → Worker → Nat) :
      f'.total m subs + m s w = c.fanout.total m subs + m s w' :=
    Fanout.total_set at_ here rfl
  have record : (Circuit.publish reports { c with fanout := f' }).record = c.record ++ reports :=
    record_publish reports { c with fanout := f' }
  have balance := stride.balance
  have owed := changes fun _ w ↦ w.owed
  have panics := changes fun s w ↦ w.panicsOver (fun _ ↦ true) s
  refine
    { size := ?size
      open_ := h.open_
      next := ?next
      fed := ?fed
      news := ?news
      panics := ?panics
      all := ?all
      echoes := ?echoes
      used := ?used }
  case size =>
    exact (Array.size_setIfInBounds ..).trans h.size
  case next =>
    rw [record, List.length_append]
    exact Nat.le_add_right_of_le h.next
  case fed =>
    intro j v there
    rw [record]
    have fed : v.IsFedBy (c.record.take c.next) := by
      have there : (c.fanout.workers.setIfInBounds i w')[j]? = some v := there
      by_cases same : i = j
      · subst same
        obtain ⟨inside, -⟩ := Array.getElem?_eq_some_iff.mp here
        rw [Array.getElem?_setIfInBounds_self_of_lt inside] at there
        exact Option.some.inj there ▸ (h.fed i w here).stride stride
      · rw [Array.getElem?_setIfInBounds_ne same] at there
        exact h.fed j v there
    exact fed.mono ((List.prefix_append c.record reports).take c.next).sublist
  case news =>
    have none_new : reports.countP (!·.isReport) = 0 := by
      refine List.countP_eq_zero.mpr fun e mem ↦ ?_
      rw [Event.isReport, stride.kind_of_mem mem]
      decide
    rw [record, List.countP_append, none_new]
    exact h.news
  case panics =>
    have few : reports.countP (·.kind ≠ .subscriberOverflow) ≤ reports.length :=
      List.countP_le_length
    have before := h.panics
    rw [record, List.countP_append]
    show _ + f'.total _ subs ≤ _ + f'.total _ subs
    omega
  case all =>
    have overflows : f'.total (fun _ w ↦ w.overflows) subs =
        c.fanout.total (fun _ w ↦ w.overflows) subs := by
      have := changes fun _ w ↦ w.overflows
      have : w'.overflows = w.overflows := by rw [Worker.overflows, stride.offers, Worker.overflows]
      omega
    have before := h.all
    rw [record, List.length_append]
    show _ + f'.total _ subs ≤ _ + f'.total _ subs + f'.total _ subs
    omega
  case echoes =>
    have echoed := changes fun s w ↦ w.panicsOver Event.isReport s
    have more : w'.panicsOver Event.isReport s ≤
        w.panicsOver Event.isReport s + (c.isEchoAt subs i).toNat := by
      rcases stride.taken with ⟨taken, -⟩ | ⟨e, rest, free, next, taken, -⟩
      · rw [Worker.panicsOver_of_taken taken]
        exact Nat.le_add_right _ _
      · rw [Worker.panicsOver_of_push taken, isEchoAt_of_taken at_ here free next]
    have before := h.echoes
    show f'.total _ subs ≤ _
    omega
  case used =>
    have busy := changes fun _ w ↦ w.busy
    have taken := changes fun _ w ↦ w.taken.size
    have turn := stride.used h.open_
    have before := h.used
    show _ + f'.total _ subs ≤ c.next + 2 * f'.total _ subs
    omega

theorem Balance.work (h : c.Balance subs outside echoes used) (i : Nat) :
    (c.work subs i).Balance subs outside (echoes + (c.isEchoAt subs i).toNat)
      (used + (c.fanout.isEnabled c.now i).toNat) := by
  cases at_ : subs[i]? with
  | none =>
    have nobody : c.fanout.workers[i]? = none := by
      rw [Array.getElem?_eq_none_iff, h.size]
      exact Array.getElem?_eq_none_iff.mp at_
    have same : c.work subs i = c := by
      rw [Circuit.work, Fanout.step_of_none at_]
      rfl
    rw [same, isEchoAt, at_, Fanout.isEnabled, nobody]
    exact h
  | some s =>
    obtain ⟨w, here⟩ : ∃ w, c.fanout.workers[i]? = some w := by
      obtain ⟨inside, -⟩ := Array.getElem?_eq_some_iff.mp at_
      have inside : i < c.fanout.workers.size := h.size.symm ▸ inside
      exact ⟨_, Array.getElem?_eq_getElem inside⟩
    have enabled : c.fanout.isEnabled c.now i = w.isEnabled c.now c.fanout.closed := by
      rw [Fanout.isEnabled, here]
      rfl
    rw [Circuit.work, Fanout.step_eq at_ here, enabled]
    exact h.stride at_ here (w.stride_step s c.now c.fanout.closed)

/-- What an emission reports. -/
theorem Balance.emit (h : c.Balance subs outside echoes used) {e : Event} {next : Nat}
    (received : c.bus.receive c.next = .event e next) :
    (Circuit.emit subs e { c with next := next }).Balance subs outside echoes (used + 1) := by
  obtain ⟨at_, rfl⟩ := Bus.receive_eq_event received
  rw [← getElem?_record] at at_
  let reports := (c.fanout.emit subs e).2
  let f' := (c.fanout.emit subs e).1
  let c' := Circuit.emit subs e { c with next := c.next + 1 }
  have becomes : c' = Circuit.publish reports { c with next := c.next + 1, fanout := f' } := rfl
  have grown : c'.record = c.record ++ reports := by
    rw [becomes, record_publish]
    rfl
  have stays (m : Subscriber → Worker → Nat) (h : ∀ s w, m s (w.offer s.queueRoom e).2 = m s w) :
      f'.total m subs = c.fanout.total m subs := by
    rw [Fanout.total_emit (d := fun _ _ ↦ 0) h, Fanout.total_zero, Nat.add_zero]
  have overflows : f'.total (fun _ w ↦ w.overflows) subs =
      c.fanout.total (fun _ w ↦ w.overflows) subs + reports.length := by
    rw [Fanout.total_emit fun s w ↦ Worker.overflows_offer s.queueRoom e,
      ← Fanout.length_reports_emit h.size]
  have owed := stays (fun _ w ↦ w.owed) fun _ _ ↦ rfl
  have panics := stays (fun s w ↦ w.panicsOver (fun _ ↦ true) s) fun _ _ ↦ rfl
  obtain ⟨inside, -⟩ := List.getElem?_eq_some_iff.mp at_
  refine
    { size := Fanout.size_emit.trans h.size
      open_ := Fanout.closed_emit.trans h.open_
      next := ?next
      fed := ?fed
      news := ?news
      panics := ?panics
      all := ?all
      echoes := ?echoes
      used := ?used }
  case next =>
    rw [grown, List.length_append]
    exact Nat.le_add_right_of_le inside
  case fed =>
    intro i w there
    have seen : c'.record.take (c.next + 1) = c.record.take c.next ++ [e] := by
      rw [grown, List.take_append_of_le_length inside, List.take_add_one, at_]
      rfl
    rw [show c'.next = c.next + 1 from rfl, seen]
    obtain ⟨v, here, rfl⟩ := Option.map_eq_some_iff.mp (Fanout.workers_emit i ▸ there)
    rw [Fanout.offered]
    split
    · exact (h.fed i v here).offer _ e
    · exact (h.fed i v here).mono (List.sublist_append_left _ _)
  case news =>
    have none_new : reports.countP (!·.isReport) = 0 := by
      refine List.countP_eq_zero.mpr fun r mem ↦ ?_
      rw [Event.isReport, (Fanout.emit_reports mem).1]
      decide
    rw [grown, List.countP_append, none_new]
    exact h.news
  case panics =>
    have none_new : reports.countP (·.kind ≠ .subscriberOverflow) = 0 := by
      refine List.countP_eq_zero.mpr fun r mem ↦ ?_
      rw [(Fanout.emit_reports mem).1]
      decide
    have before := h.panics
    rw [grown, List.countP_append, none_new]
    show _ + f'.total _ subs ≤ _ + f'.total _ subs
    omega
  case all =>
    have before := h.all
    rw [grown, List.length_append]
    show _ + f'.total _ subs ≤ _ + f'.total _ subs + f'.total _ subs
    omega
  case echoes =>
    have same := stays (fun s w ↦ w.panicsOver Event.isReport s) fun _ _ ↦ rfl
    show f'.total _ subs ≤ _
    rw [same]
    exact h.echoes
  case used =>
    have busy := stays (fun _ w ↦ w.busy) fun _ _ ↦ rfl
    have taken := stays (fun _ w ↦ w.taken.size) fun _ _ ↦ rfl
    have before := h.used
    show _ + f'.total _ subs ≤ c.next + 1 + 2 * f'.total _ subs
    omega

/-- One receipt of the relay. -/
theorem Balance.relay (h : c.Balance subs outside echoes used) :
    (c.relay subs).Balance subs outside echoes
      (used + (decide (c.bus.receive c.next ≠ .nothing)).toNat) := by
  rw [Circuit.relay]
  cases received : c.bus.receive c.next with
  | nothing => exact h
  | event e next => exact h.emit received
  | missed count next =>
    have goes : (c.bus.receive c.next).next? = some next := by rw [received]; rfl
    obtain ⟨on, inside⟩ := Bus.receive_next goes
    have before := h.used
    exact
      { h with
        next := size_bus c ▸ inside
        fed := fun i w here ↦
          (h.fed i w here).mono (List.take_sublist_take_left (Nat.le_of_lt on))
        used := by
          show used + 1 + c.fanout.total _ subs ≤ next + 2 * c.fanout.total _ subs
          omega }

/-- **Every move keeps the balance.** -/
theorem Balance.move (h : c.Balance subs outside echoes used) (m : CircuitMove) :
    (c.move subs m).Balance subs (outside + m.isPublish.toNat) (echoes + (m.isEcho subs c).toNat)
      (used + (m.isOfUse c).toNat) := by
  cases m with
  | publish e => exact h.publish e
  | relay => exact h.relay
  | work i => exact h.work i
  | pass ms => exact { h with }

theorem balance_start (subs : Array Subscriber) (room : Nat) :
    (start subs room).Balance subs 0 0 0 := by
  have idle (i : Nat) (w : Worker) (here : (start subs room).fanout.workers[i]? = some w) :
      w = {} :=
    (Array.mem_replicate.mp (Array.mem_of_getElem? here)).2
  have none_yet {m : Subscriber → Worker → Nat} (h : ∀ s, m s {} = 0) :
      (start subs room).fanout.total m subs = 0 := by
    refine sum_eq_zero fun i _ ↦ ?_
    rw [Fanout.countAt]
    split
    · rename_i s w _ here
      rw [idle i w here]
      exact h s
    · rfl
  refine
    { size := Array.size_replicate
      open_ := rfl
      next := Nat.le_refl 0
      fed := fun i w here ↦ ?fed
      news := Nat.le_refl 0
      panics := ?panics
      all := ?all
      echoes := Nat.le_of_eq (none_yet fun _ ↦ rfl)
      used := ?used }
  case fed =>
    rw [idle i w here]
    exact ⟨.refl _, .refl _⟩
  case panics =>
    rw [none_yet (m := fun _ w ↦ w.owed) fun _ ↦ rfl]
    exact Nat.zero_le _
  case all =>
    rw [none_yet (m := fun _ w ↦ w.owed) fun _ ↦ rfl]
    exact Nat.zero_le _
  case used =>
    rw [none_yet (m := fun _ w ↦ w.busy) fun _ ↦ rfl]
    exact Nat.zero_le _

/-- The balance after any number of moves. -/
theorem balance_after (subs : Array Subscriber) (room : Nat) (run : Nat → CircuitMove) (k : Nat) :
    (after subs room run k).Balance subs (published subs room run k) (Circuit.echoes subs room run k)
      (turnsOfUse subs room run k) := by
  induction k with
  | zero => exact balance_start subs room
  | succ k ih =>
    rw [published, Circuit.echoes, turnsOfUse, tally_succ, tally_succ, tally_succ]
    exact ih.move (run k)

/-! ### The bound -/

/-- A panic is over a report, or over one of the events from outside. -/
theorem Balance.panics_le (h : c.Balance subs outside echoes used) :
    c.fanout.total (fun s w ↦ w.panicsOver (fun _ ↦ true) s) subs ≤ echoes + subs.size * outside :=
  calc c.fanout.total (fun s w ↦ w.panicsOver (fun _ ↦ true) s) subs
    _ ≤ c.fanout.total (fun s w ↦ w.panicsOver Event.isReport s) subs + subs.size * outside :=
      Fanout.total_le fun i s w _ here ↦
        ((h.fed i w here).panicsOver_le s).trans <| Nat.add_le_add_left
          (((List.take_sublist _ _).countP_le).trans h.news) _
    _ ≤ echoes + subs.size * outside := Nat.add_le_add_right h.echoes _

/-- Every worker refuses what is on the bus at most once. -/
theorem Balance.overflows_le (h : c.Balance subs outside echoes used) :
    c.fanout.total (fun _ w ↦ w.overflows) subs ≤
      subs.size * (outside + c.fanout.total (fun s w ↦ w.panicsOver (fun _ ↦ true) s) subs) :=
  calc c.fanout.total (fun _ w ↦ w.overflows) subs
    _ ≤ c.fanout.total (fun _ _ ↦ 0) subs + subs.size * _ :=
      Fanout.total_le fun i s w _ here ↦
        (((h.fed i w here).overflows_le).trans ((List.take_sublist _ _).countP_le)).trans <|
          Nat.le_add_left_of_le (Nat.le_of_add_right_le h.panics)
    _ = _ := by rw [Fanout.total_zero, Nat.zero_add]

/-- **How much is published**: for every event from outside and every panic over a report, so much
and no more. -/
theorem Balance.size_le (h : c.Balance subs outside echoes used) :
    c.bus.size ≤ (subs.size + 1) * ((subs.size + 1) * outside + echoes) := by
  have panics := h.panics_le
  have overflows := h.overflows_le
  have all := h.all
  generalize c.fanout.total (fun s w ↦ w.panicsOver (fun _ ↦ true) s) subs = P at *
  calc c.bus.size
    _ = c.record.length := c.size_bus
    _ ≤ outside + P + subs.size * (outside + P) := by omega
    _ = (subs.size + 1) * (outside + P) := by rw [Nat.add_mul, Nat.one_mul, Nat.add_comm]
    _ ≤ (subs.size + 1) * ((subs.size + 1) * outside + echoes) := by
      refine Nat.mul_le_mul_left _ ?_
      rw [Nat.add_mul, Nat.one_mul]
      omega

/-- How many turns are of use: every event on the bus is taken off it once, and by every worker at
most once; and every worker comes to the end of what it took. -/
theorem Balance.used_le (h : c.Balance subs outside echoes used) :
    used ≤ (2 * subs.size + 1) * c.bus.size := by
  have taken : c.fanout.total (fun _ w ↦ w.taken.size) subs ≤ subs.size * c.bus.size :=
    calc c.fanout.total (fun _ w ↦ w.taken.size) subs
      _ ≤ c.fanout.total (fun _ _ ↦ 0) subs + subs.size * c.record.length :=
        Fanout.total_le fun i s w _ here ↦ Nat.le_add_left_of_le <|
          (h.fed i w here).size_taken_le.trans (List.take_sublist _ _).length_le
      _ = subs.size * c.bus.size := by rw [Fanout.total_zero, Nat.zero_add, size_bus]
  have used := h.used
  have next : c.next ≤ c.bus.size := c.size_bus ▸ h.next
  calc _
    _ ≤ c.next + 2 * c.fanout.total (fun _ w ↦ w.taken.size) subs := Nat.le_of_add_right_le used
    _ ≤ c.bus.size + 2 * (subs.size * c.bus.size) := by omega
    _ = (2 * subs.size + 1) * c.bus.size := by
      rw [Nat.add_mul, Nat.one_mul, Nat.mul_assoc, Nat.add_comm]

end Circuit

end Supervision
