import Supervision.Proofs.Supervisor.Ending
import Supervision.Proofs.Supervisor.Feeding

/-!
# Every event is delivered

The first run of a supervisor starts the relay, and does not end before the relay has: it tells the
relay to stop only after it has said how its stop ended, the relay then takes everything that is on
the bus before it closes the queues, and the workers empty their queues before they end
(`State.IsOnWay`). So whatever was published until then has reached every subscriber, but for what
the relay was told it missed and what found a queue full, and of the latter every subscriber's name
was published (`run_delivers_events`).

That rests on subscribers that begin to handle whatever they take. One that panics before takes its
worker down, and gets nothing from then on (`flinching_is_not_served`).
-/

namespace Supervision

/-- The run has the relay, and has not told it to stop. -/
def HostStage.keepsRelay : HostStage → Bool
  | .serving _ hasRelay => hasRelay
  | .stopping run _ _ | .joiningWatcher run => run.hasRelay
  | .absent | .fresh | .joiningRelay _ | .closing _ _ | .finished _ => false

namespace State

variable {S : Setup} {admits : Deed → Prop} {s t d s₁ : State} {b k : Nat} {r r' : Relay}

/-! ### What the host does with the relay -/

/-- What a stop comes to: it goes on, or it ends, and says so last. -/
inductive Stops (hasRelay : Bool) (s : State) : State → Prop where
  | goesOn {t : State} (relay : t.relay = s.relay) (fanout : t.fanout = s.fanout)
      (before : t.host.isBeforeEnd = true) (keeps : t.host.keepsRelay = hasRelay) :
      Stops hasRelay s t
  | ends {t : State} {run : Shutting} {e : Event} (relay : t.relay = s.relay)
      (fanout : t.fanout = s.fanout) (host : t.host = .joiningWatcher run)
      (keeps : run.hasRelay = hasRelay) (kind : e.kind.endsStop = true)
      (last : t.ensemble.bus.sent.back? = some e) : Stops hasRelay s t

theorem Stops.congr {has : Bool} {u : State} (h : Stops has t u) (relay : t.relay = s.relay)
    (fanout : t.fanout = s.fanout) : Stops has s u := by
  cases h with
  | goesOn relay' fanout' before keeps =>
    exact .goesOn (relay'.trans relay) (fanout'.trans fanout) before keeps
  | ends relay' fanout' host keeps kind last =>
    exact .ends (relay'.trans relay) (fanout'.trans fanout) host keeps kind last

theorem Stops.relay {has : Bool} (h : Stops has s t) : t.relay = s.relay := by
  cases h with
  | goesOn relay => exact relay
  | ends relay => exact relay

theorem Stops.fanout {has : Bool} (h : Stops has s t) : t.fanout = s.fanout := by
  cases h with
  | goesOn relay fanout => exact fanout
  | ends relay fanout => exact fanout

theorem stopFrom_stops {hasRelay : Bool} (run : Shutting) (deadline : Nat) (told : Bool)
    (left : List (Nat × Nat)) (s : State) (has : run.hasRelay = hasRelay) :
    Stops hasRelay s (s.stopFrom S run deadline told left) := by
  have step := stopStep_stopFrom S run deadline told left s
  generalize s.stopFrom S run deadline told left = t at step ⊢
  induction step with
  | ends run _ s =>
    have kind : (if run.stuck.isEmpty then Event.allStopped
        else .graceExceeded run.stuck).kind.endsStop = true := by split <;> rfl
    refine .ends rfl rfl rfl has kind ?_
    exact Array.back?_push
  | tells _ ih => exact (ih has).congr rfl rfl
  | skips _ _ ih => exact ih has
  | aborts _ _ _ ih => exact (ih has).congr rfl rfl
  | waits => exact .goesOn rfl rfl rfl has

/-- A stop begins, or the run breaks off. -/
theorem beginStop_stops (watcher : Nat) (has : Bool) (s : State) :
    Stops has s (s.beginStop S watcher has) ∨
      ((s.beginStop S watcher has).relay = s.relay ∧
        (s.beginStop S watcher has).fanout = s.fanout ∧
        ∃ m, (s.beginStop S watcher has).host = .finished (.panicked m)) := by
  have relay : s.hear.relay = s.relay := by rw [hear_frame]
  have fanout : s.hear.fanout = s.fanout := by rw [hear_frame]
  cases far : S.settings.grace.isBeyondClocks with
  | true =>
    rw [beginStop_of_far far]
    exact .inr ⟨relay, fanout, _, rfl⟩
  | false =>
    rw [beginStop_of_near far]
    have stops := stopFrom_stops (S := S) (s.hear.opening watcher has s.heardDeaf)
      (s.now + S.settings.grace.millisUp) false s.currentCycles s.hear.close rfl
    exact .inl (stops.congr relay fanout)

theorem startCycles_frame (places : List Nat) (s : State) :
    (places.foldl (fun s place ↦ s.startCycle place) s).relay = s.relay ∧
      (places.foldl (fun s place ↦ s.startCycle place) s).fanout = s.fanout ∧
      (places.foldl (fun s place ↦ s.startCycle place) s).ensemble = s.ensemble := by
  induction places generalizing s with
  | nil => exact ⟨rfl, rfl, rfl⟩
  | cons place rest ih => exact ih (s.startCycle place)

/-- A run begins with the relay that there is, or with one at the end of the bus. -/
theorem beginRun_frame (S : Setup) (s : State) :
    (s.beginRun S).relay = some (s.relay.getD { next := s.ensemble.bus.size }) ∧
      (s.beginRun S).fanout = s.fanout ∧ (s.beginRun S).ensemble = s.ensemble ∧
      (s.beginRun S).host = .serving s.watchers.size s.relay.isNone := by
  have listen : ∃ t, (if s.relay.isNone then
      { s with relay := some { next := s.ensemble.bus.size } }.enter (.started .relay) else s) = t ∧
      t.relay = some (s.relay.getD { next := s.ensemble.bus.size }) ∧ t.fanout = s.fanout ∧
      t.ensemble = s.ensemble ∧ t.watchers = s.watchers := by
    cases relay : s.relay with
    | none => exact ⟨_, rfl, rfl, rfl, rfl, rfl⟩
    | some r => exact ⟨_, rfl, relay, rfl, rfl, rfl⟩
  obtain ⟨t, same, relay, fanout, ensemble, watchers⟩ := listen
  have cycles := startCycles_frame (List.range S.posts.size)
    ({ t with watchers := t.watchers.push { next := s.ensemble.bus.size } }.enter
      (.started (.watcher t.watchers.size)))
  rw [beginRun, same]
  refine ⟨cycles.1.trans relay, cycles.2.1.trans fanout, cycles.2.2.trans ensemble, ?_⟩
  rw [← watchers]

theorem conclude_frame (run : Shutting) (s : State) :
    (s.conclude S run).relay = s.relay ∧ (s.conclude S run).fanout = s.fanout ∧
      ∃ result ending, (s.conclude S run).host = .closing result ending := by
  rw [conclude]
  split
  · exact ⟨rfl, rfl, _, _, rfl⟩
  · split <;> exact ⟨rfl, rfl, _, _, rfl⟩

theorem stepClosing_frame (result : RunEnd) (ending : Option SessionEnd) (s : State) :
    (s.stepClosing S result ending).relay = s.relay ∧
      (s.stepClosing S result ending).fanout = s.fanout ∧
      ∃ result', (s.stepClosing S result ending).host = .finished result' := by
  cases ending with
  | none => exact ⟨rfl, rfl, _, rfl⟩
  | some ending =>
    rw [stepClosing, closeSession]
    cases s.recorder with
    | none => exact ⟨rfl, rfl, _, rfl⟩
    | some recorder => exact ⟨rfl, rfl, _, rfl⟩

/-- The host leaves the workers alone, and never gives the relay up. -/
theorem stepHost_frame (S : Setup) (s : State) :
    (s.stepHost S).fanout = s.fanout ∧ ((s.stepHost S).relay = none → s.relay = none) := by
  have stays {t : State} (relay : t.relay = s.relay) (fanout : t.fanout = s.fanout) :
      t.fanout = s.fanout ∧ (t.relay = none → s.relay = none) :=
    ⟨fanout, fun none_ ↦ relay.symm.trans none_⟩
  rw [stepHost]
  split
  case h_1 | h_2 => exact stays rfl rfl
  case h_3 =>
    obtain ⟨relay, fanout, -⟩ := beginRun_frame S s
    exact ⟨fanout, fun none_ ↦ nomatch relay.symm.trans none_⟩
  case h_4 watcher hasRelay _ =>
    split
    · rcases beginStop_stops (S := S) watcher hasRelay s with stops | ⟨relay, fanout, -⟩
      · exact stays stops.relay stops.fanout
      · exact stays relay fanout
    · exact stays rfl rfl
  case h_5 run deadline left _ =>
    have stops := stopFrom_stops (S := S) run deadline true left s rfl
    exact stays stops.relay stops.fanout
  case h_6 run _ =>
    obtain ⟨relay, fanout, -⟩ := conclude_frame (S := S) run s
    split
    · split
      · exact ⟨rfl, Option.map_eq_none_iff.mp⟩
      · exact stays relay fanout
    · exact stays rfl rfl
  case h_7 run _ =>
    obtain ⟨relay, fanout, -⟩ := conclude_frame (S := S) run s
    split
    · exact stays relay fanout
    · exact stays rfl rfl
  case h_8 result ending _ =>
    obtain ⟨relay, fanout, -⟩ := stepClosing_frame (S := S) result ending s
    split
    · exact stays relay fanout
    · exact stays rfl rfl

/-! ### How far the relay is -/

/-- In this state the host says how the stop of its run ended, and that is the last event on the bus
then. -/
structure EndsStop (S : Setup) (d : State) : Prop where
  before : d.host.isBeforeEnd = true
  after : ∃ run, (d.stepHost S).host = .joiningWatcher run
  last : ∃ e : Event, e.kind.endsStop = true ∧
    (d.stepHost S).ensemble.bus.sent.back? = some e

/-- How far the relay is when the stop of its run has ended with so many events on the bus: it is
not told to stop before the watcher has ended, and has taken them all when it ends. -/
def HasDrained (k : Nat) (r : Relay) : HostStage → Prop
  | .joiningWatcher run => run.hasRelay = true ∧ r.stage = .listening ∧ r.stop = false
  | .joiningRelay _ => r.stage = .listening ∨ k ≤ r.next
  | .closing _ _ | .finished _ => r.stage = .finished ∧ k ≤ r.next
  | .absent | .fresh | .serving _ _ | .stopping _ _ _ => False

/-- A run that began in `s₁` and has the relay is before the end of its stop, has broken off, or
has said how its stop ended. -/
inductive IsOnWay (S : Setup) (admits : Deed → Prop) (s₁ : State) (r : Relay) : State → Prop where
  | before {s : State} (host : s.host.isBeforeEnd = true) (keeps : s.host.keepsRelay = true)
      (listens : r.stage = .listening) (untold : r.stop = false) : IsOnWay S admits s₁ r s
  | broken {s : State} {m : String} (host : s.host = .finished (.panicked m)) :
      IsOnWay S admits s₁ r s
  | after {s d : State} (until_ : Reaches S admits s₁ d) (ends : d.EndsStop S)
      (since : Reaches S admits (d.stepHost S) s)
      (drained : HasDrained (d.stepHost S).ensemble.bus.size r s.host) : IsOnWay S admits s₁ r s

/-- What the relay does never takes it back. -/
theorem HasDrained.step {size : Nat} {stage : HostStage} (h : HasDrained k r stage)
    (step : r.Step size r') (le : k ≤ size) : HasDrained k r' stage := by
  cases stage with
  | joiningWatcher run =>
    obtain ⟨has, listens, untold⟩ := h
    cases step with
    | stays | receives => exact ⟨has, listens, untold⟩
    | closes _ told => exact absurd (untold.symm.trans told) Bool.false_ne_true
    | ends joins => exact nomatch listens.symm.trans joins
  | joiningRelay run =>
    cases step with
    | stays => exact h
    | receives listens => exact .inl listens
    | closes _ _ all => exact .inr (Nat.le_trans le all)
    | ends joins => exact h.imp_left fun listens ↦ nomatch listens.symm.trans joins
  | closing result ending | finished result =>
    obtain ⟨gone, all⟩ := h
    cases step with
    | stays => exact ⟨gone, all⟩
    | receives listens | closes listens => exact nomatch gone.symm.trans listens
    | ends joins => exact nomatch gone.symm.trans joins
  | absent | fresh | serving | stopping => exact h.elim

/-- Before the end of its stop, a run goes on with the relay, or breaks off. -/
theorem stepHost_stops (before : s.host.isBeforeEnd = true) (keeps : s.host.keepsRelay = true) :
    Stops true s (s.stepHost S) ∨
      ((s.stepHost S).relay = s.relay ∧
        ∃ m, (s.stepHost S).host = .finished (.panicked m)) := by
  cases stage : s.host with
  | serving watcher hasRelay =>
    have has : hasRelay = true := by rwa [stage] at keeps
    subst has
    rw [stepHost, stage]
    dsimp only
    split
    · exact (beginStop_stops watcher true s).imp_right fun ⟨relay, _, broken⟩ ↦ ⟨relay, broken⟩
    · exact .inl (.goesOn rfl rfl before keeps)
  | stopping run deadline left =>
    have has : run.hasRelay = true := by rwa [stage] at keeps
    rw [stepHost, stage]
    exact .inl (stopFrom_stops run deadline true left s has)
  | fresh => rw [stage] at keeps; cases keeps
  | absent | joiningWatcher | joiningRelay | closing | finished => rw [stage] at before; cases before

/-- Once its stop has ended, a run tells the relay to stop when the watcher is over, and goes on
when the relay is. -/
theorem stepHost_drained (relay : s.relay = some r) (drained : HasDrained k r s.host) :
    ∃ stop, (s.stepHost S).relay = some { r with stop := stop } ∧
      HasDrained k { r with stop := stop } (s.stepHost S).host := by
  have stays (same : s.stepHost S = s) : ∃ stop,
      (s.stepHost S).relay = some { r with stop := stop } ∧
        HasDrained k { r with stop := stop } (s.stepHost S).host := by
    rw [same]
    exact ⟨r.stop, relay, drained⟩
  cases stage : s.host with
  | joiningWatcher run =>
    rw [stage] at drained
    by_cases gone : s.watcherIsOver run.watcher = true
    · have step : s.stepHost S = { s with
          relay := s.relay.map fun r ↦ { r with stop := true }, host := .joiningRelay run } := by
        simp only [stepHost, stage, gone, drained.1, if_true]
      rw [step, relay]
      exact ⟨true, rfl, .inl drained.2.1⟩
    · exact stays (by simp [stepHost, stage, gone])
  | joiningRelay run =>
    rw [stage] at drained
    by_cases gone : s.relayIsOver = true
    · have finished : r.stage = .finished := by simpa [relayIsOver, relay] using gone
      obtain ⟨same, -, result, ending, host⟩ := conclude_frame (S := S) run s
      have step : s.stepHost S = s.conclude S run := by simp only [stepHost, stage, gone, if_true]
      have all : k ≤ r.next := drained.resolve_left fun listens ↦ nomatch finished.symm.trans listens
      rw [step, host]
      exact ⟨r.stop, same.trans relay, finished, all⟩
    · exact stays (by simp [stepHost, stage, gone])
  | closing result ending =>
    rw [stage] at drained
    by_cases gone : (ending.isNone || s.writerIsOver) = true
    · obtain ⟨same, -, result', host⟩ := stepClosing_frame (S := S) result ending s
      have step : s.stepHost S = s.stepClosing S result ending := by
        simp only [stepHost, stage, gone, if_true]
      rw [step, host]
      exact ⟨r.stop, same.trans relay, drained⟩
    · exact stays (by simp only [stepHost, stage, gone]; rfl)
  | finished result => exact stays (by rw [stepHost, stage])
  | absent | fresh | serving | stopping => rw [stage] at drained; exact drained.elim

namespace IsOnWay

/-- Somebody else goes on than the host. -/
theorem other (h : IsOnWay S admits s₁ r s) (last : Step S admits s t) (host : t.host = s.host)
    (step : r.Step s.ensemble.bus.size r') : IsOnWay S admits s₁ r' t := by
  cases h with
  | before before keeps listens untold =>
    cases step with
    | stays | receives => exact .before (host ▸ before) (host ▸ keeps) listens untold
    | closes _ told => exact absurd (untold.symm.trans told) Bool.false_ne_true
    | ends joins => exact nomatch listens.symm.trans joins
  | broken broken => exact .broken (host.trans broken)
  | after until_ ends since drained =>
    exact .after until_ ends (since.step last) (host ▸ drained.step step since.grows.size_le)

/-- The host goes on. -/
theorem host (way : IsOnWay S admits s₁ r s) (h : s.IsFeeding S b r) (ho : s.IsOrderly)
    (reached : Reaches S admits s₁ s) (last : Step S admits s (s.stepHost S)) :
    ∃ r', (s.stepHost S).IsFeeding S b r' ∧ IsOnWay S admits s₁ r' (s.stepHost S) := by
  have chain : Changes S (fun _ ↦ True) (some .host) s (s.stepHost S) := changes_stepHost s ho
  have fed {stop : Bool} (relay : (s.stepHost S).relay = some { r with stop := stop }) :
      (s.stepHost S).IsFeeding S b { r with stop := stop } :=
    h.told relay (stepHost_frame S s).1 (chain.receipts (by simp)) chain.room (grows_stepHost S s)
  cases way with
  | before before keeps listens untold =>
    rcases stepHost_stops (S := S) before keeps with stops | ⟨relay, m, host⟩
    · generalize stop : s.stepHost S = t at stops fed last
      cases stops with
      | goesOn relay fanout before keeps =>
        exact ⟨r, fed (relay.trans h.relay), .before before keeps listens untold⟩
      | @ends run e relay fanout host has kind said =>
        have ends : s.EndsStop S := ⟨before, ⟨run, stop ▸ host⟩, ⟨e, kind, stop ▸ said⟩⟩
        have since : Reaches S admits (s.stepHost S) t := by
          rw [stop]
          exact .refl t
        refine ⟨r, fed (relay.trans h.relay), .after reached ends since ?_⟩
        rw [host]
        exact ⟨has, listens, untold⟩
    · exact ⟨r, fed (relay.trans h.relay), .broken host⟩
  | broken broken =>
    have same : s.stepHost S = s := by rw [stepHost, broken]
    rw [same]
    exact ⟨r, h, .broken broken⟩
  | after until_ ends since drained =>
    obtain ⟨stop, relay, drained⟩ := stepHost_drained (S := S) h.relay drained
    exact ⟨_, fed relay, .after until_ ends (since.step last) drained⟩

end IsOnWay

/-! ### Before the first run -/

/-- No run had the subscribers yet, and nothing has come to them. -/
structure IsUnfed (S : Setup) (s : State) : Prop where
  size : s.fanout.workers.size = S.subscribers.size
  open_ : s.fanout.closed = false
  idle : ∀ (i : Nat) w, s.fanout.workers[i]? = some w → w = {}
  receipts : s.receipts = []

theorem IsUnfed.initial (S : Setup) (bus : Bus) (recorder : Option Recorder) (now : Nat) :
    (State.initial S bus recorder now).IsUnfed S where
  size := Array.size_replicate
  open_ := rfl
  idle _ _ here := (Array.mem_replicate.mp (Array.mem_of_getElem? here)).2
  receipts := rfl

/-- A first run begins to feed. -/
theorem IsUnfed.isFeeding_beginRun (h : s.IsUnfed S) (first : s.relay = none) (ho : s.IsOrderly)
    (fresh : s.host = .fresh) :
    (s.stepHost S).IsFeeding S s.ensemble.bus.size { next := s.ensemble.bus.size } := by
  obtain ⟨relay, fanout, ensemble, -⟩ := beginRun_frame S s
  have begins : s.stepHost S = s.beginRun S := by rw [stepHost, fresh]
  have chain : Changes S (fun _ ↦ True) (some .host) s (s.stepHost S) := changes_stepHost s ho
  have receipts := (chain.receipts (by simp)).trans h.receipts
  rw [begins] at receipts ⊢
  have relayed : (s.beginRun S).relayed = [] := by rw [State.relayed, receipts, List.filterMap_nil]
  rw [first] at relay
  exact
    { relay := relay
      since := Nat.le_refl _
      upTo := Nat.le_of_eq (by rw [ensemble])
      known := fun p from_ lt ↦ absurd lt (Nat.not_lt.mpr from_)
      lagged := fun p told ↦ by
        rw [hasMissed, receipts] at told
        cases told
      order := relayed ▸ .nil
      bounds := fun p mem ↦ by
        rw [relayed] at mem
        cases mem
      size := fanout ▸ h.size
      workers := fun i w here ↦ by
        rw [fanout] at here ⊢
        rw [relayed, h.open_, h.idle i w here]
        exact .fresh _
      listening := fun _ ↦ fanout ▸ h.open_
      finished := fun ended ↦ by cases ended }

end State

section Runs

variable {S : Setup} {admits : Deed → Prop} {s s' : State}

/-- Until there is a relay, the subscribers get nothing. -/
theorem Step.isUnfed (last : Step S admits s s') (ho : s.IsOrderly)
    (h : s.relay = none → s.IsUnfed S) (none_ : s'.relay = none) : s'.IsUnfed S := by
  rcases last.turn_or_changes ho (·.isFeeding = true) with ⟨task, feeds, rfl⟩ | ⟨who, other, hc⟩
  · cases task with
    | host =>
      obtain ⟨fanout, kept⟩ := State.stepHost_frame S s
      have unfed := h (kept none_)
      have chain : Changes S admits (some .host) s (s.stepHost S) := State.changes_stepHost s ho
      exact ⟨fanout ▸ unfed.size, fanout ▸ unfed.open_, fanout ▸ unfed.idle,
        (chain.receipts (by simp)).trans unfed.receipts⟩
    | relay =>
      have before : s.relay = none := State.relay_eq_none_of_stepRelay none_
      have same : s.step S .relay = s := by
        show s.stepRelay S = s
        rw [State.stepRelay, before]
      rw [same]
      exact h before
    | worker i =>
      obtain ⟨relay, fanout⟩ := State.stepWorker_frame S i s
      have unfed := h (relay.symm.trans none_)
      refine ⟨?_, ?_, fun j w' there ↦ ?_,
        (State.isApart_stepWorker S i s).receipts.trans unfed.receipts⟩
      · show (s.stepWorker S i).fanout.workers.size = _
        rw [fanout, Fanout.size_step, unfed.size]
      · show (s.stepWorker S i).fanout.closed = _
        rw [fanout, Fanout.closed_step, unfed.open_]
      · have there : (s.stepWorker S i).fanout.workers[j]? = some w' := there
        rw [fanout] at there
        rcases Fanout.stride_step there with there | ⟨sub, w, reports, -, here, stride⟩
        · exact unfed.idle j w' there
        · rw [unfed.open_, unfed.idle j w here] at stride
          exact stride.of_idle
    | watcher | cycle | restart | confirmation | writer | keeper => cases feeds
  · have apart := hc.isApart other
    have unfed := h (apart.relay.symm.trans none_)
    exact ⟨apart.fanout ▸ unfed.size, apart.fanout ▸ unfed.open_, apart.fanout ▸ unfed.idle,
      apart.receipts.trans unfed.receipts⟩

/-- **During a run, nothing is lost between the bus and the subscribers.** -/
theorem Reaches.isFeeding {s₁ t : State} {b : Nat} {r : Relay}
    (mild : ∀ sub ∈ S.subscribers, sub.IsMild) (alone : ¬ admits .call) (kept : ¬ admits .abandon)
    (run : Reaches S admits s₁ t) (ho : s₁.IsOrderly) (begins : s₁.IsFeeding S b r)
    (way : State.IsOnWay S admits s₁ r s₁) :
    t.IsOrderly ∧ ∃ r, t.IsFeeding S b r ∧ State.IsOnWay S admits s₁ r t := by
  induction run with
  | refl => exact ⟨ho, r, begins, way⟩
  | @step s t before last ih =>
    obtain ⟨ho, r, h, way⟩ := ih
    refine ⟨last.isOrderly ho, ?_⟩
    rcases last.turn_or_changes ho (·.isFeeding = true) with ⟨task, feeds, rfl⟩ | ⟨who, other, hc⟩
    · cases task with
      | host => exact way.host h ho before last
      | relay =>
        have chain : Changes S admits (some .relay) s (s.stepRelay S) := State.changes_stepRelay s
        have host := chain.host_of_other alone kept (by simp)
        obtain ⟨r', step, h'⟩ := h.relayStep
        exact ⟨r', h', way.other last host step⟩
      | worker i =>
        have chain : Changes S admits (some (.worker i)) s (s.stepWorker S i) :=
          State.changes_stepWorker i s
        have host := chain.host_of_other alone kept (by simp)
        exact ⟨r, h.workerStep mild i, way.other last host .stays⟩
      | watcher | cycle | restart | confirmation | writer | keeper => cases feeds
    · have host := hc.host_of_other alone kept (other .host rfl)
      exact ⟨r, h.of_isApart (hc.isApart other), way.other last host .stays⟩

end Runs

/-! ### What has reached a subscriber -/

namespace State

variable {S : Setup} {s : State} {b k i : Nat} {r : Relay}

/-- The events that were passed to subscriber `i`, in order. -/
def takenBy (s : State) (i : Nat) : Array Event := ((s.fanout.workers[i]?).map (·.taken)).getD #[]

/-- The event in a position was offered to subscriber `i` when its queue was full. -/
def hasOverflowed (i p : Nat) (s : State) : Bool :=
  match s.fanout.workers[i]? with
  | some w => (s.relayed.zip w.offers.toList).any fun (q, o) ↦ q = p && o.refusal = some .full
  | none => false

/-- Subscriber `i` was passed the events in the positions `ps` of the bus, each once and in order.
These are all from position `b` on and before `k`, and maybe some more, but for those that the relay
was told it missed, which were further behind than the bus could hold, and those that found the
queue full. It is over the last of them. -/
structure IsServed (b k i : Nat) (ps : List Nat) (s : State) : Prop where
  order : ps.Pairwise (· < ·)
  since : ∀ p ∈ ps, b ≤ p
  taken : (s.takenBy i).toList.map some = ps.map (s.ensemble.bus.sent[·]?)
  all : ∀ p, b ≤ p → p < k →
    p ∈ ps ∨ s.hasMissed p = true ∨ s.hasOverflowed i p = true
  lagged : ∀ p, s.hasMissed p = true → p + s.ensemble.bus.room < s.ensemble.bus.size
  gone : s.fanout.workers[i]?.any (·.isOver) = true

/-- When the relay is over, every subscriber has got what there was for it. -/
theorem IsFeeding.isServed (h : s.IsFeeding S b r) (gone : r.stage = .finished) (all : k ≤ r.next)
    (there : i < S.subscribers.size) : ∃ ps, s.IsServed b k i ps := by
  have inside : i < s.fanout.workers.size := h.size ▸ there
  have here : s.fanout.workers[i]? = some s.fanout.workers[i] := Array.getElem?_eq_getElem inside
  generalize s.fanout.workers[i] = w at here
  have supplied := h.workers i w here
  have ended := h.finished gone i w here
  have got : w.taken.toList = w.accepted := by
    rw [supplied.accepted, supplied.queue_eq_nil ended, List.append_nil]
  refine ⟨w.got s.relayed, h.order.sublist supplied.got_sublist,
    fun p mem ↦ (h.bounds p (supplied.got_sublist.mem mem)).1, ?_, fun p from_ lt ↦ ?_, h.lagged,
    ?_⟩
  · rw [takenBy, here, supplied.map_got]
    exact congrArg (List.map some) got
  · rcases h.known p from_ (Nat.lt_of_lt_of_le lt all) with mem | missed
    · refine (supplied.mem_got_or mem).imp_right fun ⟨o, both, full⟩ ↦ .inr ?_
      rw [hasOverflowed, here]
      exact List.any_eq_true.mpr ⟨(p, o), both, by simp [full]⟩
    · exact .inr (.inl missed)
  · rw [here]
    exact ended

end State

/-- **Nothing that is published is lost in silence.** Take the first run of a supervisor whose
subscribers begin to handle whatever they take. Whenever its relay takes an event, it offers it to
every subscriber and reports every full queue once, unless the event is itself such a report. And
when the run returns, every subscriber has got whatever was published from the beginning of the run
up to what the run said of the end of its stop, once and in order, but for what the relay was told
it missed and what found the queue full. -/
theorem run_delivers_events {S : Setup} {admits : Deed → Prop} {bus : Bus}
    {recorder : Option Recorder} {now : Nat} {s₀ : State} (mild : ∀ sub ∈ S.subscribers, sub.IsMild)
    (before : Reaches S admits (State.initial S bus recorder now) s₀) (fresh : s₀.host = .fresh)
    (first : s₀.relay = none) :
    (∀ u r e next, Reaches S (Deed.StaysIn admits) (s₀.stepHost S) u → u.relay = some r →
      r.stage = .listening → u.ensemble.bus.receive r.next = .event e next →
        State.IsHandedOn S e u (u.stepRelay S)) ∧
      ∀ t result, Reaches S (Deed.StaysIn admits) (s₀.stepHost S) t → t.host = .finished result →
        (∀ m, result ≠ .panicked m) →
        ∃ d, Reaches S (Deed.StaysIn admits) (s₀.stepHost S) d ∧ d.EndsStop S ∧
          Reaches S (Deed.StaysIn admits) (d.stepHost S) t ∧
          ∀ i < S.subscribers.size,
            ∃ ps, t.IsServed s₀.ensemble.bus.size (d.stepHost S).ensemble.bus.size i ps := by
  have alone : ¬ Deed.StaysIn admits .call := fun h ↦ h.2.1 rfl
  have kept : ¬ Deed.StaysIn admits .abandon := fun h ↦ h.2.2 rfl
  obtain ⟨ho, unfed⟩ := before.keeps
    (P := fun s ↦ s.IsOrderly ∧ (s.relay = none → s.IsUnfed S))
    (fun h last ↦ ⟨last.isOrderly h.1, last.isUnfed h.1 h.2⟩)
    ⟨State.isOrderly_initial S bus recorder now, fun _ ↦ .initial S bus recorder now⟩
  have begins := (unfed first).isFeeding_beginRun first ho fresh
  have way : State.IsOnWay S (Deed.StaysIn admits) (s₀.stepHost S)
      { next := s₀.ensemble.bus.size } (s₀.stepHost S) := by
    obtain ⟨-, -, -, host⟩ := State.beginRun_frame S s₀
    have begun : s₀.stepHost S = s₀.beginRun S := by rw [State.stepHost, fresh]
    rw [first] at host
    rw [begun]
    exact .before (by rw [host]; rfl) (by rw [host]; rfl) rfl rfl
  have ho' : (s₀.stepHost S).IsOrderly :=
    (Step.turn .host (by show s₀.hostIsEnabled = true; rw [State.hostIsEnabled, fresh]) :
      Step S admits s₀ _).isOrderly ho
  have stands {u : State} (run : Reaches S (Deed.StaysIn admits) (s₀.stepHost S) u) :=
    run.isFeeding mild alone kept ho' begins way
  refine ⟨fun u r e next run relay listens taken ↦ ?_, fun t result run gone returns ↦ ?_⟩
  · obtain ⟨-, r', h, -⟩ := stands run
    cases h.relay.symm.trans relay
    exact h.isHandedOn listens taken
  · obtain ⟨-, r, h, way⟩ := stands run
    cases way with
    | before host => rw [gone] at host; cases host
    | @broken m host => exact absurd (HostStage.finished.inj (gone.symm.trans host)) (returns m)
    | @after d until_ ends since drained =>
      rw [gone] at drained
      exact ⟨d, until_, ends, since, fun i there ↦ h.isServed drained.1 drained.2 there⟩

/-! ### Subscribers that panic over their first event -/

/-- A supervisor without resources, and with one subscriber. -/
def Setup.heard (room : Nat) (react : Nat → Event → Reaction) : Setup where
  settings := Settings.standard
  posts := #[]
  subscribers := #[{ name := "p", room := room, react := react }]

/-- Its queue holds one event, and it panics when it handles the first. -/
def Setup.jumpy : Setup :=
  .heard 1 fun k _ ↦ if k = 0 then .panics 0 (.text "oh") else .returns 0

/-- It panics before it begins to handle the first. -/
def Setup.flinching : Setup := .heard 1024 fun k _ ↦ if k = 0 then .refuses else .returns 0

/-- Whatever is on the bus is handed on, and the run returns. The second event finds a queue of one
event full. -/
def Cue.drain : List Cue :=
  turns [(.relay, 2), (.watcher 0, 1), (.worker 0, 1), (.host, 1), (.relay, 1), (.worker 0, 1),
    (.relay, 1), (.worker 0, 1), (.relay, 1), (.worker 0, 1), (.relay, 1), (.host, 2)]

/-- The same, when the worker is taken down by the first event. -/
def Cue.drainOfDead : List Cue :=
  turns [(.relay, 1), (.watcher 0, 1), (.worker 0, 1), (.relay, 1), (.host, 1), (.relay, 3),
    (.host, 2)]

namespace State

/-- The shutdown of the first run is asked for, and its stop is about to end. -/
def bidden (S : Setup) : State := ((asked S).stepHost S).undergo (.request (.requested "bye"))

/-- What it says of that is handed on, and the run returns. -/
def afterBidden (S : Setup) (cues : List Cue) : State := ((bidden S).stepHost S).play S cues

/-- How the first run of a supervisor goes whose shutdown is asked for at once. -/
theorem reaches_bidden {S : Setup} {cues : List Cue} (admits : Deed → Prop)
    (asks : admits (.request (.requested "bye")))
    (playable : isPlayable S cues ((bidden S).stepHost S) = true)
    (alone : ∀ d, .deed d ∉ cues) :
    Reaches S (Deed.StaysIn admits) ((asked S).stepHost S) (bidden S) ∧
      Reaches S (Deed.StaysIn admits) ((bidden S).stepHost S) (afterBidden S cues) :=
  ⟨.step (.refl _) (.deed _ ⟨asks, nofun, nofun⟩),
    reaches_play (.refl _) playable fun d mem ↦ absurd mem (alone d)⟩

end State

/-- The subscriber gets every event but the one that finds its queue full: the request for the
shutdown, the report of that refusal, and the report of its own panic. -/
theorem jumpy_is_served :
    ∃ d : State, d.EndsStop .jumpy ∧ (State.afterBidden .jumpy Cue.drain).host = .finished .ok ∧
      (∃ ps, (State.afterBidden .jumpy Cue.drain).IsServed 0
        (d.stepHost .jumpy).ensemble.bus.size 0 ps) ∧
      (State.afterBidden .jumpy Cue.drain).hasOverflowed 0 1 = true ∧
      ((State.afterBidden .jumpy Cue.drain).takenBy 0).toList.map (·.kind)
        = [.shutdownRequested, .subscriberOverflow, .subscriberPanicked] := by
  have mild : ∀ sub ∈ Setup.jumpy.subscribers, sub.IsMild := by
    intro sub mem k e
    rw [List.mem_singleton.mp (Array.mem_toList_iff.mpr mem)]
    show (if k = 0 then _ else _) ≠ _
    split <;> nofun
  let admits (d : Deed) : Prop := d = .call ∨ d = .request (.requested "bye")
  have asked : Reaches .jumpy admits (State.initial .jumpy (.ofCapacity 1024) none 0)
      (State.asked .jumpy) := State.reaches_asked .jumpy (.inl rfl)
  have playable : State.isPlayable .jumpy Cue.drain
      ((State.bidden .jumpy).stepHost .jumpy) = true := by decide +kernel
  obtain ⟨until_, since⟩ := State.reaches_bidden admits (.inr rfl) playable
    fun d ↦ Cue.deed_notMem_turns d _
  have step : Step .jumpy (Deed.StaysIn admits) (State.bidden .jumpy)
      ((State.bidden .jumpy).stepHost .jumpy) := .turn .host (by decide +kernel)
  have gone : (State.afterBidden .jumpy Cue.drain).host = .finished .ok := by decide +kernel
  obtain ⟨d, -, ends, -, served⟩ := (run_delivers_events mild asked rfl rfl).2 _ .ok
    ((until_.step step).trans since) gone nofun
  exact ⟨d, ends, gone, served 0 (by decide), by decide +kernel, by decide +kernel⟩

/-- **A subscriber that panics before it begins to handle an event loses all that come after it**:
the run says that everything has stopped, and returns, and that never reached the subscriber, though
the relay took it and its queue was not full. -/
theorem flinching_is_not_served :
    ∃ (admits : Deed → Prop) (d t : State),
      Reaches .flinching admits (State.initial .flinching (.ofCapacity 1024) none 0)
        (State.asked .flinching) ∧
      (State.asked .flinching).host = .fresh ∧ (State.asked .flinching).relay = none ∧
      Reaches .flinching (Deed.StaysIn admits) ((State.asked .flinching).stepHost .flinching) d ∧
      d.EndsStop .flinching ∧
      Reaches .flinching (Deed.StaysIn admits) (d.stepHost .flinching) t ∧
      t.host = .finished .ok ∧
      ¬ ∃ ps, t.IsServed (State.asked .flinching).ensemble.bus.size
        (d.stepHost .flinching).ensemble.bus.size 0 ps := by
  let admits (d : Deed) : Prop := d = .call ∨ d = .request (.requested "bye")
  have playable : State.isPlayable .flinching Cue.drainOfDead
      ((State.bidden .flinching).stepHost .flinching) = true := by decide +kernel
  obtain ⟨until_, since⟩ := State.reaches_bidden admits (.inr rfl) playable
    fun d ↦ Cue.deed_notMem_turns d _
  have ends : (State.bidden .flinching).EndsStop .flinching :=
    { before := by decide +kernel
      after := ⟨⟨0, true, some (.requested "bye"), none, none, []⟩, by decide +kernel⟩
      last := ⟨.allStopped, rfl, by decide +kernel⟩ }
  refine ⟨admits, State.bidden .flinching, State.afterBidden .flinching Cue.drainOfDead,
    State.reaches_asked .flinching (.inl rfl), rfl, rfl, until_, ends, since, by decide +kernel, ?_⟩
  rintro ⟨ps, served⟩
  have taken : ((State.afterBidden .flinching Cue.drainOfDead).takenBy 0).size = 1 := by
    decide +kernel
  have two : ((State.bidden .flinching).stepHost .flinching).ensemble.bus.size = 2 := by
    decide +kernel
  have got (p : Nat) (lt : p < 2) : p ∈ ps := by
    refine (served.all p (Nat.zero_le p) (two ▸ lt)).resolve_right ?_
    have none_ : ∀ p < 2, (State.afterBidden .flinching Cue.drainOfDead).hasMissed p = false ∧
        (State.afterBidden .flinching Cue.drainOfDead).hasOverflowed 0 p = false := by
      decide +kernel
    simp [none_ p lt]
  have one : ps.length = 1 := by
    have same := congrArg List.length served.taken
    simpa [taken] using same.symm
  obtain ⟨q, rfl⟩ := List.length_eq_one_iff.mp one
  have first := List.mem_singleton.mp (got 0 (by decide))
  have second := List.mem_singleton.mp (got 1 (by decide))
  omega

end Supervision
