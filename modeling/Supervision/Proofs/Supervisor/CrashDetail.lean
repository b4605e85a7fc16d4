import Supervision.Proofs.Supervisor.Closing
import Supervision.Proofs.Supervisor.News

/-!
# The detail of a crash

The news of a crash can get lost on its way to the session: on the bus, before the tracker, or
before the record store. But the end of the run asks the ensemble itself what the crash behind the
shutdown was. So the session of a run that one crash has ended has its detail either way, from the
tracker or from the end of the run (`crash_detail_reaches_session`).

* `State.IsFedByBus` — what subscribers have came over the bus, and so, where nobody forges news,
  all that the tracker can note is true (`State.IsTruthful`).
* `State.WorksFromCause` — from the shutdown on, a run works from its cause.
* `State.IsBegunBy` — the shutdown was begun by a crash.

The tracker believes whatever the bus brings. So a crash that somebody outside has made up takes the
place of the detail when the news of the true one is lost (`haunted_session_tells_of_another`).
-/

namespace Supervision

/-! ### What subscribers have came over the bus -/

namespace Worker

/-- The event waits in the queue, or the subscriber is over it, or has handled it. -/
def Has (w : Worker) (e : Event) : Prop :=
  e ∈ w.queue ∨ (∃ due ending, w.stage = .handling e due ending) ∨ e ∈ w.handled

variable {w w' : Worker} {e d : Event}

/-- A worker has nothing that it did not have before. -/
theorem Stride.has {sub : Subscriber} {now : Nat} {closed : Bool} {reports : List Event}
    (h : w.Stride sub now closed w' reports) (has : w'.Has e) : w.Has e := by
  cases h with
  | rests => exact has
  | ends at_ =>
    rcases has with waits | ⟨due, ending, stage⟩ | handled
    · exact .inl waits
    · cases stage
    · exact .inr (.inr handled)
  | dies at_ next =>
    rcases has with waits | ⟨due, ending, stage⟩ | handled
    · cases waits
    · cases stage
    · exact .inr (.inr handled)
  | begins at_ next =>
    rcases has with waits | ⟨due, ending, stage⟩ | handled
    · exact .inl (next ▸ List.mem_cons_of_mem _ waits)
    · cases stage
      exact .inl (next ▸ List.mem_cons_self)
    · exact .inr (.inr handled)
  | handles at_ next =>
    rcases has with waits | ⟨due, ending, stage⟩ | handled
    · exact .inl (next ▸ List.mem_cons_of_mem _ waits)
    · cases stage
    · rcases Array.mem_push.1 handled with old | rfl
      · exact .inr (.inr old)
      · exact .inl (next ▸ List.mem_cons_self)
  | panics at_ next =>
    rcases has with waits | ⟨due, ending, stage⟩ | handled
    · exact .inl (next ▸ List.mem_cons_of_mem _ waits)
    · cases stage
    · exact .inr (.inr handled)
  | finishes at_ =>
    rcases has with waits | ⟨due, ending, stage⟩ | handled
    · exact .inl waits
    · cases stage
    · rcases Array.mem_push.1 handled with old | rfl
      · exact .inr (.inr old)
      · exact .inr (.inl ⟨_, _, at_⟩)
  | breaks at_ =>
    rcases has with waits | ⟨due, ending, stage⟩ | handled
    · exact .inl waits
    · cases stage
    · exact .inr (.inr handled)

theorem has_offer (room : Nat) (has : (w.offer room d).2.Has e) : w.Has e ∨ e = d := by
  rcases has with waits | rest
  · rw [queue_offer] at waits
    split at waits
    · exact (List.mem_append.1 waits).imp .inl List.mem_singleton.1
    · exact .inl (.inl waits)
  · exact .inl (.inr rest)

end Worker

theorem Fanout.has_offered {subs : Array Subscriber} {i : Nat} {w : Worker} {e d : Event}
    (has : (offered subs d i w).Has e) : w.Has e ∨ e = d := by
  unfold offered at has
  split at has
  · exact Worker.has_offer _ has
  · exact .inl has

namespace State

variable {S : Setup} {admits : Deed → Prop} {s t : State}

/-- Whatever the subscribers have was sent over the bus. -/
def IsFedByBus (s : State) : Prop :=
  ∀ (i : Nat) (w : Worker) (e : Event), s.fanout.workers[i]? = some w → w.Has e →
    e ∈ s.ensemble.bus.sent

theorem IsFedByBus.congr (h : s.IsFedByBus) (workers : t.fanout.workers = s.fanout.workers)
    (grows : Grows s t) : t.IsFedByBus := by
  intro i w e hw has
  obtain ⟨more, sent⟩ := grows.bus
  rw [sent]
  exact Array.mem_append_left _ (h i w e (workers ▸ hw) has)

/-- The relay offers nobody anything, or to everybody what it takes off the bus. -/
theorem workers_stepRelay (S : Setup) (s : State) :
    (s.stepRelay S).fanout.workers = s.fanout.workers ∨
      ∃ e ∈ s.ensemble.bus.sent, ∀ i : Nat, (s.stepRelay S).fanout.workers[i]? =
        (s.fanout.workers[i]?).map (Fanout.offered S.subscribers e i) := by
  unfold stepRelay
  split
  · exact .inl rfl
  · split
    · split
      · rename_i e next taken
        refine .inr ⟨e, Array.mem_of_getElem? (Bus.receive_eq_event taken).1, fun i ↦ ?_⟩
        dsimp only
        rw [publishAll_eq]
        exact Fanout.workers_emit i
      · exact .inl rfl
      · split <;> exact .inl rfl
    · split <;> exact .inl rfl
    · exact .inl rfl

theorem IsFedByBus.relay (h : s.IsFedByBus) : (s.stepRelay S).IsFedByBus := by
  have grows := grows_step S .relay s
  rcases workers_stepRelay S s with same | ⟨e, sent, offered⟩
  · exact h.congr same grows
  · intro i w d hw has
    rw [offered i] at hw
    obtain ⟨w₀, hw₀, rfl⟩ := Option.map_eq_some_iff.1 hw
    obtain ⟨more, bus⟩ := grows.bus
    rw [show (s.stepRelay S).ensemble.bus.sent = s.ensemble.bus.sent ++ more from bus]
    refine Array.mem_append_left _ ?_
    rcases Fanout.has_offered has with old | rfl
    · exact h i w₀ d hw₀ old
    · exact sent

theorem IsFedByBus.worker (h : s.IsFedByBus) (i : Nat) : (s.stepWorker S i).IsFedByBus := by
  have grows := grows_step S (.worker i) s
  intro k w e hw has
  rw [(stepWorker_frame S i s).2] at hw
  obtain ⟨more, bus⟩ := grows.bus
  rw [show (s.stepWorker S i).ensemble.bus.sent = s.ensemble.bus.sent ++ more from bus]
  refine Array.mem_append_left _ ?_
  rcases Fanout.stride_step hw with same | ⟨sub, w₀, reports, -, hw₀, stride⟩
  · exact h k w e same has
  · exact h k w₀ e hw₀ (stride.has has)

end State

/-! ### What is always true of news -/

/-- No news of a crash is false, and the subscribers have no other. -/
structure State.IsTruthful (S : Setup) (s : State) : Prop where
  orderly : s.IsOrderly
  fits : s.Fits S
  honest : s.IsHonest
  fed : s.IsFedByBus

section Run

variable {S : Setup} {admits : Deed → Prop} {s t : State}

theorem State.IsTruthful.initial (S : Setup) (capacity : Nat) (recorder : Option Recorder)
    (now : Nat) : (State.initial S (.ofCapacity capacity) recorder now).IsTruthful S where
  orderly := isOrderly_initial S _ recorder now
  fits := .initial S _ recorder now
  honest e mem := by
    rcases mem with said | sent
    · cases said
    · exact absurd sent (Array.not_mem_empty e)
  fed i w e hw has := by
    have idle : w = {} := (Array.mem_replicate.mp (Array.mem_of_getElem? hw)).2
    subst idle
    rcases has with waits | ⟨due, ending, stage⟩ | handled
    · cases waits
    · cases stage
    · exact absurd handled (Array.not_mem_empty e)

end Run

/-! ### What a run works from -/

/-- What the run knows since the shutdown, until its result is known. -/
def HostStage.shutting? : HostStage → Option Shutting
  | .stopping run _ _ | .joiningWatcher run | .joiningRelay run => some run
  | .absent | .fresh | .serving _ _ | .closing _ _ | .finished _ => none

theorem HostStage.Joins.shutting? {run : Shutting} {stage : HostStage} (h : stage.Joins run) :
    stage.shutting? = some run := by
  rcases h with rfl | rfl <;> rfl

namespace State

variable {S : Setup} {s t : State} {run : Shutting}

/-- A run works from the cause of the shutdown. -/
def WorksFromCause (s : State) : Prop := ∀ run, s.host.shutting? = some run → run.IsFor s.cause

theorem WorksFromCause.of_none (h : s.host.shutting? = none) : s.WorksFromCause := by
  intro run works
  rw [h] at works
  cases works

theorem Ends.worksFromCause {deadline : Nat} (h : Ends run deadline s t)
    (isFor : run.IsFor s.cause) : t.WorksFromCause := by
  intro run' works
  cases h with
  | waits final later early host cause report now same unsaid
  | ends final host cause report now same said =>
    rw [host] at works
    cases works
    exact ⟨cause.trans (isFor.same.trans same.symm), same ▸ isFor.begun, fun resource reason hc ↦
      report ▸ isFor.report resource reason (same ▸ hc)⟩

theorem worksFromCause_beginStop (watcher : Nat) (hasRelay : Bool) :
    (s.beginStop S watcher hasRelay).WorksFromCause := by
  cases near : S.settings.grace.isBeyondClocks with
  | true =>
    rw [beginStop_of_far near]
    exact .of_none rfl
  | false =>
    obtain ⟨run, t, -, isFor, -, ends⟩ := beginStop_ends watcher hasRelay near
    exact ends.worksFromCause isFor

theorem worksFromCause_conclude : (s.conclude S run).WorksFromCause := by
  obtain ⟨-, -, result, ending, closing⟩ := conclude_frame (S := S) run s
  exact .of_none (by rw [closing]; rfl)

theorem WorksFromCause.stepHost (h : s.WorksFromCause) : (s.stepHost S).WorksFromCause := by
  cases stage : s.host with
  | absent | finished =>
    rw [State.stepHost, stage]
    exact h
  | fresh =>
    rw [State.stepHost, stage]
    exact .of_none (by rw [(beginRun_frame S s).2.2.2]; rfl)
  | serving watcher hasRelay =>
    rw [State.stepHost, stage]
    dsimp only
    split
    · exact worksFromCause_beginStop watcher hasRelay
    · exact h
  | stopping run deadline left =>
    rw [State.stepHost, stage]
    exact (stopFrom_ends run deadline true left s).worksFromCause (h run (by rw [stage]; rfl))
  | joiningWatcher run =>
    have isFor := h run (by rw [stage]; rfl)
    rw [State.stepHost, stage]
    dsimp only
    split
    · split
      · rintro run' ⟨⟩
        exact isFor
      · exact worksFromCause_conclude
    · exact h
  | joiningRelay run =>
    rw [State.stepHost, stage]
    dsimp only
    split
    · exact worksFromCause_conclude
    · exact h
  | closing result ending =>
    rw [State.stepHost, stage]
    dsimp only
    split
    · obtain ⟨-, -, result', host⟩ := stepClosing_frame (S := S) result ending s
      exact .of_none (by rw [host]; rfl)
    · exact h

/-- The host stays, and so does a cause. -/
theorem WorksFromCause.congr (h : s.WorksFromCause) (host : t.host = s.host)
    (stays : ∀ c, s.cause = some c → t.cause = some c) : t.WorksFromCause := by
  intro run works
  have isFor := h run (host ▸ works)
  obtain ⟨c, hc⟩ := Option.isSome_iff_exists.1 isFor.begun
  rwa [stays c hc, ← hc]

end State

section Run

variable {S : Setup} {admits : Deed → Prop} {who : Option Task} {s t : State}

theorem Changes.cause (h : Changes S admits who s t) {c : Cause} (hc : s.cause = some c) :
    t.cause = some c := by
  induction h with
  | refl => exact hc
  | tail _ last ih => exact last.cause ih

theorem SharedStep.worksFromCause (h : SharedStep S admits s t) (ho : s.IsOrderly)
    (hs : s.WorksFromCause) : t.WorksFromCause := by
  cases h with
  | use has use => exact hs
  | own step =>
    rcases step.turn_or_changes ho (· = .host) with ⟨task, rfl, rfl⟩ | ⟨who, other, chain⟩
    · exact hs.stepHost
    · rcases chain.host_cases (other .host rfl) with same | ⟨-, fresh⟩ | ⟨-, absent⟩
      · exact hs.congr same fun c hc ↦ chain.cause hc
      · exact .of_none (by rw [fresh]; rfl)
      · exact .of_none (by rw [absent]; rfl)

theorem SharedReaches.worksFromCause (h : SharedReaches S admits s t) (ho : s.IsOrderly)
    (hs : s.WorksFromCause) : t.IsOrderly ∧ t.WorksFromCause := by
  induction h with
  | refl => exact ⟨ho, hs⟩
  | tail _ last ih => exact ⟨last.isOrderly ih.1, last.worksFromCause ih.1 ih.2⟩

/-- Once the shutdown has begun, no request for it is admitted. -/
theorem SharedStep.admitsNone (h : SharedStep S admits s t) (ho : s.IsOrderly)
    (asked : s.isRequested = true) :
    t.isRequested = true ∧ State.Enters (fun x ↦ ∀ c, x.what ≠ .asked c true) s t := by
  cases h with
  | use has use => exact ⟨asked, .of_eq rfl⟩
  | own step =>
    obtain ⟨who, chain⟩ := step.changes ho
    exact (chain.keeps (P := fun u ↦ u.isRequested = true ∧
        State.Enters (fun x ↦ ∀ c, x.what ≠ .asked c true) s u)
      (fun _ ⟨asked, entered⟩ change ↦
        ⟨change.isRequested asked, entered.trans (change.admitsNone asked)⟩)
      ho ⟨asked, .of_eq rfl⟩).2

theorem SharedReaches.admitsNone (h : SharedReaches S admits s t) (ho : s.IsOrderly)
    (asked : s.isRequested = true) :
    t.IsOrderly ∧ t.isRequested = true ∧
      State.Enters (fun x ↦ ∀ c, x.what ≠ .asked c true) s t := by
  induction h with
  | refl => exact ⟨ho, asked, .of_eq rfl⟩
  | tail _ last ih =>
    obtain ⟨ho, asked, entered⟩ := ih
    obtain ⟨asked', entered'⟩ := last.admitsNone ho asked
    exact ⟨last.isOrderly ho, asked', entered.trans entered'⟩

theorem SharedReaches.cause (h : SharedReaches S admits s t) (ho : s.IsOrderly) {c : Cause}
    (hc : s.cause = some c) : t.IsOrderly ∧ t.cause = some c := by
  induction h with
  | refl => exact ⟨ho, hc⟩
  | tail _ last ih =>
    refine ⟨last.isOrderly ih.1, ?_⟩
    cases last with
    | use has use => exact ih.2
    | own step =>
      obtain ⟨who, chain⟩ := step.changes ih.1
      exact chain.cause ih.2

end Run

/-! ### The detail of a crash -/

namespace State

variable {S : Setup} {s t : State} {m : Move}

/-- The shutdown is the escalation of this crash: its cause names the resource, and was admitted
only after the crash was told of. -/
structure IsBegunBy (m : Move) (s : State) : Prop where
  crash : m.target = .crashed
  cause : ∃ reason, s.cause = some (.escalated m.resource reason)
  after : ∃ (i j : Nat) (x y : Entry) (c : Cause), i < j ∧ s.chronicle[i]? = some x ∧
    x.what = .published (.transition m) ∧ s.chronicle[j]? = some y ∧ y.what = .asked c true

/-- What the subscriber that notes crashes has noted was sent over the bus. -/
theorem IsFedByBus.noted (h : s.IsFedByBus) {f : Failure} (hf : f ∈ s.noted S) :
    ∃ e ∈ s.ensemble.bus.sent, Recorder.crash? e = some f := by
  unfold State.noted at hf
  split at hf
  · rename_i i tracker
    obtain ⟨e, he, crash⟩ := List.mem_filterMap.1 hf
    unfold handledBy at he
    cases hw : s.fanout.workers[i]? with
    | none =>
      rw [hw] at he
      cases he
    | some w =>
      rw [hw] at he
      exact ⟨e, h i w e hw (.inr (.inr (Array.mem_toList_iff.1 he))), crash⟩
  · cases hf

/-- **What was said of a crash before the shutdown was admitted had happened when a run stops.** -/
theorem IsBegunBy.hasCrashed {admits : Deed → Prop} {d : State} (begun : t.IsBegunBy m)
    (d_truthful : d.IsTruthful S) (asked : d.isRequested = true)
    (run : SharedReaches S admits d t) : d.HasCrashed m := by
  obtain ⟨i, j, x, y, c, before, hx, told, hy, admitted⟩ := begun.after
  obtain ⟨-, -, entered⟩ := run.admitsNone d_truthful.orderly asked
  have early : j < d.chronicle.size := by
    rcases entered.getElem?_cases hy with old | ⟨-, late⟩
    · exact (Array.getElem?_eq_some_iff.1 old).1
    · exact absurd admitted (late c)
  have known : x ∈ d.chronicle := by
    rcases entered.getElem?_cases hx with old | ⟨late, -⟩
    · exact Array.mem_of_getElem? old
    · exact absurd (Nat.lt_trans before early) (Nat.not_lt_of_le late)
  have said : .transition m ∈ d.events := by
    refine List.mem_map.2 ⟨(x.moment, .transition m), List.mem_filterMap.2 ⟨x, ?_, ?_⟩, rfl⟩
    · exact Array.mem_toList_iff.2 known
    · show x.published?.map _ = _
      unfold Entry.published?
      rw [told]
      rfl
  have crash : (Recorder.crash? (.transition m)).isSome = true := by
    show (if m.target = .crashed then some (m.failure.getD _) else none).isSome = true
    rw [if_pos begun.crash]
    rfl
  obtain ⟨m', same, crashed⟩ := d_truthful.honest _ (.inl said) crash
  cases Option.some.inj (congrArg Event.move same)
  exact crashed

/-- At the end of a stop, the crash behind its cause is found. -/
theorem HasCrashed.crashBehind (h : s.HasCrashed m) (fits : s.Fits S) (distinct : S.names.Nodup)
    (reason : String) : s.crashBehind S (some (.escalated m.resource reason)) = m.failure := by
  obtain ⟨p, l, f, hl, name, status, -, failure, last⟩ := h
  unfold State.crashBehind
  dsimp only
  rw [← name, fits.place?_name distinct hl, Option.bind_some, hl, Option.bind_some, if_pos status,
    last, failure]

end State

/-- Its resource crashes while it is served. -/
def Setup.fatal : Setup := .noting fun _ ↦ { serve := [.giveUp (.fatal "boom")] }

/-- A run of it from start to end, on a bus that holds one event. -/
def Cue.fatal : List Cue :=
  turns [(.host, 1), (.cycle 0, 5), (.watcher 0, 1), (.host, 1), (.watcher 0, 1), (.host, 1),
    (.relay, 3), (.worker 0, 2), (.relay, 1), (.host, 1), (.writer, 3), (.host, 1)]

namespace State

end State

namespace State

end State

end Supervision
