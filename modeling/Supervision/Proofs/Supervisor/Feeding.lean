import Supervision.Proofs.Fanout.Delivery
import Supervision.Proofs.Supervisor.Effects
import Supervision.Proofs.Supervisor.Entries

/-!
# The relay and the workers behind it

From the position at which the relay began, it took every event off the bus or was told that it
missed it, and it offered what it took to every worker (`State.IsFeeding`). Nobody but the host, the
relay and the workers can do anything to that (`Change.isApart`), and each of their steps keeps it,
as long as no subscriber takes its worker down.

* `State.IsFeeding.relayStep`, `State.IsFeeding.workerStep` — what a step of each comes to.
* `State.IsFeeding.isHandedOn` — what the relay does with an event, and what is reported then.
-/

namespace Supervision

/-- What the relay gets from the bus. -/
inductive Receipt where
  /-- The event in a position. -/
  | took (position : Nat)
  /-- That it missed so many events from a position on. -/
  | missed (position count : Nat)
deriving DecidableEq

namespace Receipt

/-- The position of the event that was taken. -/
def position? : Receipt → Option Nat
  | took position => some position
  | missed _ _ => none

/-- It tells that the event in position `p` was missed. -/
def misses (p : Nat) : Receipt → Bool
  | took _ => false
  | missed position count => position ≤ p && p < position + count

end Receipt

/-- What an entry says that the relay got. -/
def Entry.receipt? (x : Entry) : Option Receipt :=
  match x.what with
  | .relayed position => some (.took position)
  | .missed position count => some (.missed position count)
  | _ => none

/-- A receiver that missed events goes on behind them, with the oldest event that is still held. -/
theorem Bus.receive_eq_missed {b : Bus} {next count n : Nat}
    (h : b.receive next = .missed count n) : n = next + count ∧ 0 < count ∧ n + b.room = b.size := by
  rw [receive] at h
  split at h
  · cases h
    omega
  · split at h <;> cases h

theorem Ensemble.room_publish (events : List Event) (e : Ensemble) :
    (e.publish events).bus.room = e.bus.room := by
  show (events.foldl _ e.bus).room = _
  generalize e.bus = bus
  induction events generalizing bus with
  | nil => rfl
  | cons first rest ih => exact ih (bus.publish first)

/-- The relay goes on, when so many events are on the bus. -/
inductive Relay.Step (size : Nat) (r : Relay) : Relay → Prop where
  | stays : Step size r r
  | receives {next : Nat} (listens : r.stage = .listening) (later : r.next < next) :
    Step size r { r with next := next }
  /-- It was told to stop, and has taken everything. -/
  | closes (listens : r.stage = .listening) (told : r.stop = true) (all : size ≤ r.next) :
    Step size r { r with stage := .joining }
  | ends (joins : r.stage = .joining) : Step size r { r with stage := .finished }

namespace State

variable {S : Setup} {admits : Deed → Prop} {who : Option Task} {s t u : State} {b p : Nat}
  {r : Relay}

/-- What the relay got from the bus, in order. -/
def receipts (s : State) : List Receipt := s.view Entry.receipt?

/-- The positions of the events that the relay took off the bus and offered to the subscribers, in
order. -/
def relayed (s : State) : List Nat := s.receipts.filterMap Receipt.position?

/-- The relay was told that it missed the event in a position. -/
def hasMissed (p : Nat) (s : State) : Bool := s.receipts.any (·.misses p)

theorem relayed_of_receipts (h : t.receipts = s.receipts) : t.relayed = s.relayed :=
  congrArg (List.filterMap _) h

theorem hasMissed_of_receipts (h : t.receipts = s.receipts) (p : Nat) :
    t.hasMissed p = s.hasMissed p :=
  congrArg (List.any · _) h

/-- Nobody else tells what the relay got. -/
theorem Enters.receipts (h : Enters (s.IsEntryOf who) s t) (other : who ≠ some .relay) :
    t.receipts = s.receipts := by
  obtain ⟨more, chronicle, entered⟩ := h
  have nothing : more.filterMap Entry.receipt? = [] := by
    refine List.filterMap_eq_nil_iff.mpr fun x mem ↦ ?_
    have own := (entered x mem).2
    rw [Entry.receipt?]
    split
    · rename_i position took
      rw [took] at own
      exact absurd own other
    · rename_i position count missed
      rw [missed] at own
      exact absurd own other
    · rfl
  rw [State.receipts, State.receipts, view, view, chronicle, Array.toList_append,
    List.filterMap_append, List.toList_toArray, nothing, List.append_nil]

/-! ### What the others do -/

/-- From one state to another, nothing happens to the relay and to the workers. -/
structure IsApart (s t : State) : Prop where
  relay : t.relay = s.relay
  fanout : t.fanout = s.fanout
  receipts : t.receipts = s.receipts
  room : t.ensemble.bus.room = s.ensemble.bus.room
  grows : Grows s t

theorem IsApart.refl (s : State) : IsApart s s := ⟨rfl, rfl, rfl, rfl, .refl s⟩

theorem IsApart.trans (h : IsApart s t) (h' : IsApart t u) : IsApart s u where
  relay := h'.relay.trans h.relay
  fanout := h'.fanout.trans h.fanout
  receipts := h'.receipts.trans h.receipts
  room := h'.room.trans h.room
  grows := h.grows.trans h'.grows

end State

section Changes

variable {S : Setup} {admits : Deed → Prop} {who : Option Task} {s s' : State}

theorem Change.receipts (h : Change S admits who s s') (other : who ≠ some .relay) :
    s'.receipts = s.receipts := by
  rcases h.enters_or with entered | ⟨e, -, rfl⟩
  · exact entered.receipts other
  · exact State.view_publishAll (fun _ _ ↦ rfl) [e] s

theorem Changes.receipts (h : Changes S admits who s s') (other : who ≠ some .relay) :
    s'.receipts = s.receipts := by
  induction h with
  | refl => rfl
  | tail _ last ih => exact (last.receipts other).trans ih

/-- The bus holds as many events as ever. -/
theorem Change.room (h : Change S admits who s s') :
    s'.ensemble.bus.room = s.ensemble.bus.room := by
  have marks {t : State} {place : Nat} {m : Mark} (hm : s.mark place m = .ok t) :
      t.ensemble.bus.room = s.ensemble.bus.room := by
    rcases State.mark_cases hm with ⟨-, rfl⟩ | ⟨c, c', published, -, -, rfl⟩
    · rfl
    · rw [State.publishAll_eq]
      exact Ensemble.room_publish _ _
  have requests (c : Cause) (t : State) :
      (t.request c).2.ensemble.bus.room = t.ensemble.bus.room := by
    rw [State.request_eq, State.publishAll_eq]
    exact Ensemble.room_publish _ _
  cases h with
  | request c => exact requests c s
  | mark hm own => exact marks hm
  | begin hc fresh hm =>
    have marked := marks hm
    exact marked
  | heed resource reason =>
    have heeds := State.heed_onFailed S resource reason s
    generalize s.onFailed S resource reason = r at heeds ⊢
    cases heeds with
    | exhausted hp here new spent => exact requests _ _
    | _ => rfl
  | release hr waits due => rw [State.release_frame]
  | respawn hr gone => rw [State.respawn_frame]
  | confirm hc hr hb =>
    unfold State.confirm State.tellRecovery
    split
    · dsimp only
      split <;> rfl
    · rfl
  | _ => rfl

theorem Changes.room (h : Changes S admits who s s') :
    s'.ensemble.bus.room = s.ensemble.bus.room := by
  induction h with
  | refl => rfl
  | tail _ last ih => exact last.room.trans ih

theorem Change.isApart (h : Change S admits who s s')
    (other : ∀ t : Task, t.isFeeding = true → who ≠ some t) : State.IsApart s s' := by
  have feed : s'.relay = s.relay ∧ s'.fanout = s.fanout := by
    cases h with
    | aside relay fanout recorder signalled deaf own _ =>
      rcases own with own | ⟨t, rfl, feeds⟩
      · exact own
      · exact absurd rfl (other t feeds)
    | request c => rw [State.request_frame]; exact ⟨rfl, rfl⟩
    | mark hm own => rw [State.mark_frame hm]; exact ⟨rfl, rfl⟩
    | begin hc fresh hm => rw [State.mark_frame hm]; exact ⟨rfl, rfl⟩
    | heed resource reason => rw [State.onFailed_frame]; exact ⟨rfl, rfl⟩
    | release hr waits due => rw [State.release_frame]; exact ⟨rfl, rfl⟩
    | respawn hr gone => rw [State.respawn_frame]; exact ⟨rfl, rfl⟩
    | confirm hc hr hb => rw [State.confirm_frame]; exact ⟨rfl, rfl⟩
    | _ => exact ⟨rfl, rfl⟩
  exact ⟨feed.1, feed.2, h.receipts (other .relay rfl), h.room, h.grows⟩

theorem Changes.isApart (h : Changes S admits who s s')
    (other : ∀ t : Task, t.isFeeding = true → who ≠ some t) : State.IsApart s s' := by
  induction h with
  | refl => exact .refl s
  | tail _ last ih => exact ih.trans (last.isApart other)

end Changes

namespace State

variable {S : Setup} {s t : State} {b : Nat} {r : Relay}

/-! ### What was fed -/

/-- The relay began at position `b`. Whatever it took since then was offered to every worker, and
whatever it did not take, it was told that it missed. -/
structure IsFeeding (S : Setup) (b : Nat) (r : Relay) (s : State) : Prop where
  relay : s.relay = some r
  since : b ≤ r.next
  upTo : r.next ≤ s.ensemble.bus.size
  known : ∀ p, b ≤ p → p < r.next → p ∈ s.relayed ∨ s.hasMissed p = true
  lagged : ∀ p, s.hasMissed p = true → p + s.ensemble.bus.room < s.ensemble.bus.size
  order : s.relayed.Pairwise (· < ·)
  bounds : ∀ p ∈ s.relayed, b ≤ p ∧ p < r.next
  size : s.fanout.workers.size = S.subscribers.size
  workers : ∀ (i : Nat) w, s.fanout.workers[i]? = some w →
    w.IsSupplied s.ensemble.bus.sent s.relayed s.fanout.closed
  listening : r.stage = .listening → s.fanout.closed = false
  finished : r.stage = .finished →
    ∀ (i : Nat) w, s.fanout.workers[i]? = some w → w.isOver = true

theorem Grows.sent_eq (h : Grows s t) {p : Nat} (old : p < s.ensemble.bus.size) :
    t.ensemble.bus.sent[p]? = s.ensemble.bus.sent[p]? := by
  obtain ⟨more, sent⟩ := h.bus
  rw [sent, Array.getElem?_append_left old]

theorem Grows.size_le (h : Grows s t) : s.ensemble.bus.size ≤ t.ensemble.bus.size := by
  obtain ⟨more, sent⟩ := h.bus
  rw [Bus.size, Bus.size, sent, Array.size_append]
  exact Nat.le_add_right _ _

namespace IsFeeding

/-- What the relay took stays on the bus. -/
theorem sent_eq (h : s.IsFeeding S b r) (grows : Grows s t) :
    ∀ p ∈ s.relayed, t.ensemble.bus.sent[p]? = s.ensemble.bus.sent[p]? :=
  fun p mem ↦ grows.sent_eq (Nat.lt_of_lt_of_le (h.bounds p mem).2 h.upTo)

/-- It does not matter to the workers what the relay is told. -/
theorem told (h : s.IsFeeding S b r) {stop : Bool} (relay : t.relay = some { r with stop := stop })
    (fanout : t.fanout = s.fanout) (receipts : t.receipts = s.receipts)
    (room : t.ensemble.bus.room = s.ensemble.bus.room) (grows : Grows s t) :
    t.IsFeeding S b { r with stop := stop } := by
  have relayed := relayed_of_receipts receipts
  have missed := hasMissed_of_receipts receipts
  exact
    { relay := relay
      since := h.since
      upTo := Nat.le_trans h.upTo grows.size_le
      known := by simpa only [relayed, missed] using h.known
      lagged := fun p lost ↦ by
        rw [room]
        exact Nat.lt_of_lt_of_le (h.lagged p (missed p ▸ lost)) grows.size_le
      order := relayed ▸ h.order
      bounds := relayed ▸ h.bounds
      size := fanout ▸ h.size
      workers := by
        rw [fanout, relayed]
        exact fun i w here ↦ (h.workers i w here).congr (h.sent_eq grows)
      listening := fanout ▸ h.listening
      finished := fanout ▸ h.finished }

theorem of_isApart (h : s.IsFeeding S b r) (apart : IsApart s t) : t.IsFeeding S b r :=
  h.told (apart.relay.trans h.relay) apart.fanout apart.receipts apart.room apart.grows

end IsFeeding

/-! ### Steps of a worker -/

theorem stepWorker_frame (S : Setup) (i : Nat) (s : State) :
    (s.stepWorker S i).relay = s.relay ∧
      (s.stepWorker S i).fanout = (s.fanout.step S.subscribers s.now i).1 := by
  rw [stepWorker]
  dsimp only
  rw [publishAll_eq]
  split
  · split <;> exact ⟨rfl, rfl⟩
  · exact ⟨rfl, rfl⟩

/-- A worker takes nothing off the bus, and leaves the relay alone. -/
theorem isApart_stepWorker (S : Setup) (i : Nat) (s : State) :
    IsApart s { s.stepWorker S i with fanout := s.fanout } := by
  have chain : Changes S (fun _ ↦ True) (some (.worker i)) s (s.stepWorker S i) :=
    changes_stepWorker i s
  have grows : Grows s (s.stepWorker S i) := grows_stepWorker S i s
  exact ⟨(stepWorker_frame S i s).1, rfl, chain.receipts (by simp), chain.room,
    ⟨grows.chronicle, grows.bus⟩⟩

theorem IsFeeding.workerStep (h : s.IsFeeding S b r) (mild : ∀ sub ∈ S.subscribers, sub.IsMild)
    (i : Nat) : (s.stepWorker S i).IsFeeding S b r := by
  have fanout := (stepWorker_frame S i s).2
  -- All but the workers is as it was.
  have rest := h.of_isApart (isApart_stepWorker S i s)
  refine
    { rest with
      size := by rw [fanout, Fanout.size_step, h.size]
      workers := fun j w' there ↦ ?_
      listening := by rw [fanout, Fanout.closed_step]; exact h.listening
      finished := fun ended j w' there ↦ ?_ }
  · rw [fanout] at there
    rw [fanout, Fanout.closed_step]
    rcases Fanout.stride_step there with there | ⟨sub, w, reports, at_, here, stride⟩
    · exact rest.workers j w' there
    · exact (rest.workers j w here).stride (mild sub (Array.mem_of_getElem? at_)) stride
  · rw [fanout] at there
    rcases Fanout.stride_step there with there | ⟨sub, w, reports, -, here, stride⟩
    · exact h.finished ended j w' there
    · exact stride.isOver (h.finished ended j w here)

/-! ### Steps of the relay -/

/-- A relay that is there stays there. -/
theorem relay_eq_none_of_stepRelay (none_ : (s.stepRelay S).relay = none) : s.relay = none := by
  rw [stepRelay] at none_
  split at none_
  case h_1 none_ => exact none_
  case h_2 r relay =>
    split at none_
    · split at none_
      · dsimp only at none_
        rw [publishAll_eq] at none_
        cases none_
      · cases none_
      · split at none_
        · cases none_
        · exact none_
    · split at none_
      · cases none_
      · exact none_
    · exact none_

/-- What the relay does with an event: it offers it to every queue, and reports each that is full,
unless the event is itself the report of one. -/
structure IsHandedOn (S : Setup) (e : Event) (s t : State) : Prop where
  offers : ∀ (i : Nat) sub w, S.subscribers[i]? = some sub → s.fanout.workers[i]? = some w →
    t.fanout.workers[i]? =
      if w.queue.length < sub.queueRoom then
        some { w with offers := w.offers.push ⟨e, none⟩, queue := w.queue ++ [e] }
      else some { w with offers := w.offers.push ⟨e, some .full⟩ }
  reports : t.ensemble.bus.sent = s.ensemble.bus.sent ++
    if e.kind = .subscriberOverflow then #[]
    else ((s.fanout.full S.subscribers).map fun sub ↦ Event.overflow sub.name "full").toArray

theorem stepRelay_of_event {e : Event} {next : Nat} (relay : s.relay = some r)
    (listens : r.stage = .listening) (taken : s.ensemble.bus.receive r.next = .event e next) :
    s.stepRelay S =
      ({ s with
          relay := some { r with next := next }
          fanout := (s.fanout.emit S.subscribers e).1 }.enter
        (.relayed r.next)).publishAll (s.fanout.emit S.subscribers e).2 := by
  rw [stepRelay, relay]
  simp only [listens, taken]

namespace IsFeeding

theorem isOver_eq_false (h : s.IsFeeding S b r) (listens : r.stage = .listening) {i : Nat}
    {w : Worker} (here : s.fanout.workers[i]? = some w) : w.isOver = false := by
  have supplied := h.workers i w here
  rw [h.listening listens] at supplied
  exact supplied.isOver_eq_false

/-- **Every event that the relay takes is handed on.** -/
theorem isHandedOn (h : s.IsFeeding S b r) (listens : r.stage = .listening) {e : Event}
    {next : Nat} (taken : s.ensemble.bus.receive r.next = .event e next) :
    IsHandedOn S e s (s.stepRelay S) := by
  rw [stepRelay_of_event h.relay listens taken, publishAll_eq]
  constructor
  · intro i sub w at_ here
    show (s.fanout.emit S.subscribers e).1.workers[i]? = _
    rw [Fanout.workers_emit, here, Option.map_some, Fanout.offered, at_]
    show some (w.offer sub.queueRoom e).2 = _
    rw [Worker.offer, Worker.refusal?, h.isOver_eq_false listens here, if_neg Bool.false_ne_true]
    by_cases room : w.queue.length < sub.queueRoom
    · rw [if_pos room, if_pos room]
      rfl
    · rw [if_neg room, if_neg room]
      rfl
  · show (s.ensemble.publish _).bus.sent = _
    rw [Ensemble.sent_publish,
      Fanout.reports_emit_of_alive h.size fun i w here ↦ h.isOver_eq_false listens here]
    split <;> rfl

/-- The relay takes an event. -/
theorem receives (h : s.IsFeeding S b r) (listens : r.stage = .listening) {e : Event}
    {next : Nat} (taken : s.ensemble.bus.receive r.next = .event e next) :
    (s.stepRelay S).IsFeeding S b { r with next := next } := by
  obtain ⟨at_, rfl⟩ := Bus.receive_eq_event taken
  obtain ⟨inside, -⟩ := Array.getElem?_eq_some_iff.mp at_
  have grows : Grows s (s.stepRelay S) := grows_stepRelay S s
  have step := stepRelay_of_event (S := S) h.relay listens taken
  have closed := h.listening listens
  have fanout : (s.stepRelay S).fanout = (s.fanout.emit S.subscribers e).1 := by
    rw [step, publishAll_eq]
    rfl
  have receipts : (s.stepRelay S).receipts = s.receipts ++ [.took r.next] := by
    rw [step]
    show view _ _ = _
    rw [view_publishAll (fun _ _ ↦ rfl), view_enter]
    rfl
  have relayed : (s.stepRelay S).relayed = s.relayed ++ [r.next] := by
    rw [State.relayed, receipts, List.filterMap_append]
    rfl
  have missed (p : Nat) : (s.stepRelay S).hasMissed p = s.hasMissed p := by
    rw [hasMissed, receipts, List.any_append]
    exact Bool.or_false _
  have room := (changes_stepRelay s : Changes S (fun _ ↦ True) _ s (s.stepRelay S)).room
  have old (p : Nat) (mem : p ∈ s.relayed ++ [r.next]) : b ≤ p ∧ p < r.next + 1 := by
    rcases List.mem_append.mp mem with mem | mem
    · have := h.bounds p mem
      omega
    · rw [List.mem_singleton.mp mem]
      exact ⟨h.since, Nat.lt_succ_self _⟩
  exact
    { relay := by rw [step, publishAll_eq]; rfl
      since := Nat.le_succ_of_le h.since
      upTo := Nat.le_trans inside grows.size_le
      known := fun p from_ lt ↦ by
        rw [relayed, missed]
        rcases Nat.lt_succ_iff_lt_or_eq.mp lt with lt | rfl
        · exact (h.known p from_ lt).imp_left (List.mem_append_left _)
        · exact .inl (List.mem_append_right _ List.mem_cons_self)
      lagged := fun p lost ↦ by
        rw [room]
        exact Nat.lt_of_lt_of_le (h.lagged p (missed p ▸ lost)) grows.size_le
      order := by
        rw [relayed, List.pairwise_append]
        refine ⟨h.order, List.pairwise_singleton _ _, fun p mem q last ↦ ?_⟩
        rw [List.mem_singleton.mp last]
        exact (h.bounds p mem).2
      bounds := relayed ▸ old
      size := by rw [fanout, Fanout.size_emit, h.size]
      workers := fun i w' there ↦ by
        rw [fanout, Fanout.workers_emit] at there
        obtain ⟨w, here, rfl⟩ := Option.map_eq_some_iff.mp there
        have there : i < S.subscribers.size := h.size ▸ (Array.getElem?_eq_some_iff.mp here).1
        have supplied := h.workers i w here
        rw [closed] at supplied
        rw [fanout, Fanout.closed_emit, closed, relayed, Fanout.offered,
          Array.getElem?_eq_getElem there]
        refine (supplied.offer _ at_).congr fun p mem ↦ grows.sent_eq ?_
        exact Nat.lt_of_lt_of_le (old p mem).2 inside
      listening := fun _ ↦ by rw [fanout, Fanout.closed_emit, closed]
      finished := fun ended ↦ by
        rw [listens] at ended
        cases ended }

/-- The relay is told that it missed events. -/
theorem misses (h : s.IsFeeding S b r) (listens : r.stage = .listening) {count next : Nat}
    (missed : s.ensemble.bus.receive r.next = .missed count next) :
    (s.stepRelay S).IsFeeding S b { r with next := next } := by
  obtain ⟨rfl, some_, oldest⟩ := Bus.receive_eq_missed missed
  have step : s.stepRelay S = { s with relay := some { r with next := r.next + count } }.enter
      (.missed r.next count) := by
    rw [stepRelay, h.relay]
    simp only [listens, missed]
  have receipts : (s.stepRelay S).receipts = s.receipts ++ [.missed r.next count] := by
    rw [step]
    exact view_enter _ _ _
  have relayed : (s.stepRelay S).relayed = s.relayed := by
    rw [State.relayed, receipts, List.filterMap_append]
    exact List.append_nil _
  have lost (p : Nat) : (s.stepRelay S).hasMissed p =
      (s.hasMissed p || (r.next ≤ p && p < r.next + count)) := by
    rw [hasMissed, receipts, List.any_append, List.any_cons, List.any_nil, Bool.or_false]
    rfl
  rw [step] at relayed lost ⊢
  exact
    { relay := rfl
      since := Nat.le_add_right_of_le h.since
      upTo := by
        show r.next + count ≤ s.ensemble.bus.size
        omega
      known := fun p from_ lt ↦ by
        rw [relayed, lost]
        by_cases old : p < r.next
        · exact (h.known p from_ old).imp_right fun before ↦ by rw [before, Bool.true_or]
        · have new : (decide (r.next ≤ p) && decide (p < r.next + count)) = true := by
            simpa using ⟨Nat.le_of_not_lt old, lt⟩
          exact .inr (by rw [new, Bool.or_true])
      lagged := fun p told ↦ by
        show p + s.ensemble.bus.room < s.ensemble.bus.size
        rw [lost, Bool.or_eq_true] at told
        rcases told with before | now_
        · exact h.lagged p before
        · have inside : r.next ≤ p ∧ p < r.next + count := by simpa using now_
          omega
      order := relayed ▸ h.order
      bounds := relayed ▸ fun p mem ↦
        ⟨(h.bounds p mem).1, Nat.lt_add_right count (h.bounds p mem).2⟩
      size := h.size
      workers := relayed ▸ h.workers
      listening := h.listening
      finished := h.finished }

/-- The relay closes the queues, which it does once. -/
theorem closes (h : s.IsFeeding S b r) :
    { s with
      relay := some { r with stage := .joining }
      fanout := s.fanout.close : State }.IsFeeding S b { r with stage := .joining } :=
  { h with
    relay := rfl
    workers := fun i w here ↦ (h.workers i w here).close
    listening := nofun
    finished := nofun }

/-- All workers have ended. -/
theorem ends (h : s.IsFeeding S b r) (gone : s.fanout.isOver = true) :
    ({ s with relay := some { r with stage := .finished } : State }.enter
      (.ended .relay)).IsFeeding S b { r with stage := .finished } := by
  have all : ∀ w ∈ s.fanout.workers, w.isOver = true := by
    rw [Fanout.isOver, Array.all_eq_true_iff_forall_mem] at gone
    exact gone
  have ended : { s with relay := some { r with stage := .finished } : State }.IsFeeding S b
      { r with stage := .finished } :=
    { h with
      relay := rfl
      listening := nofun
      finished := fun _ i w here ↦ all w (Array.mem_of_getElem? here) }
  exact ended.of_isApart
    ⟨rfl, rfl, (view_enter _ _ _).trans (List.append_nil _), rfl, grows_enter _ _⟩

/-- **What a step of the relay comes to.** -/
theorem relayStep (h : s.IsFeeding S b r) :
    ∃ r', r.Step s.ensemble.bus.size r' ∧ (s.stepRelay S).IsFeeding S b r' := by
  cases stage : r.stage with
  | listening =>
    cases got : s.ensemble.bus.receive r.next with
    | event e next =>
      have later : r.next < next := (Bus.receive_next (by rw [got]; rfl)).1
      exact ⟨_, .receives stage later, h.receives stage got⟩
    | missed count next =>
      have later : r.next < next := (Bus.receive_next (by rw [got]; rfl)).1
      exact ⟨_, .receives stage later, h.misses stage got⟩
    | nothing =>
      have all := Bus.receive_eq_nothing_iff.mp got
      by_cases told : r.stop = true
      · refine ⟨_, .closes stage told all, ?_⟩
        rw [stepRelay, h.relay]
        simp only [stage, got]
        rw [if_pos told]
        exact h.closes
      · refine ⟨r, .stays, ?_⟩
        rw [stepRelay, h.relay]
        simpa [stage, got, told] using h
  | joining =>
    by_cases gone : s.fanout.isOver = true
    · refine ⟨_, .ends stage, ?_⟩
      rw [stepRelay, h.relay]
      simp only [stage, gone, if_true]
      exact h.ends gone
    · refine ⟨r, .stays, ?_⟩
      rw [stepRelay, h.relay]
      simpa [stage, gone] using h
  | finished =>
    refine ⟨r, .stays, ?_⟩
    rw [stepRelay, h.relay]
    simpa [stage] using h

end IsFeeding

end State

end Supervision
