import Supervision.Proofs.Fanout.Emission
import Supervision.Proofs.Supervisor.StopSteps

/-!
# Steps are chains of changes

Each thing that a task does is followed through its branches once, and comes out as a chain of
changes. The last two theorems gather this for whole steps and deeds, and say that the order of a
run is kept (`IsOrderly`), which the chains of the host need.
-/

namespace Supervision

namespace State

variable {S : Setup} {admits : Deed → Prop} {who : Option Task}

/-! ### Putting chains together -/

/-- A note more. -/
theorem changes_enter {s t : State} {h : Happening} (g : Changes S admits who s t)
    (own : h.IsNoteOf who) : Changes S admits who s (t.enter h) :=
  g.tail (.note h own)

/-- Reports more, of the subscribers. -/
theorem changes_publishAll {k : Task} {s t : State} {events : List Event}
    (g : Changes S admits (some k) s t)
    (h : ∀ e ∈ events, e.kind = .subscriberPanicked ∨ e.kind = .subscriberOverflow) :
    Changes S admits (some k) s (t.publishAll events) := by
  induction events generalizing t with
  | nil => exact g
  | cons e es ih =>
    have first : e.kind.isReport = true ∧ e.kind.endsStop = false := by
      rcases h e List.mem_cons_self with kind | kind <;> rw [kind] <;> exact ⟨rfl, rfl⟩
    refine ih (g.tail (.report e first.1 fun ends ↦ ?_)) fun x hx ↦ h x (List.mem_cons_of_mem _ hx)
    rw [first.2] at ends
    cases ends

theorem changes_tryMark {place : Nat} {m : Mark} (s : State)
    (own : (∃ i, who = some (.cycle i)) ∨ who = none ∧ admits (.mark place m)) :
    Changes S admits who s (s.tryMark place m) := by
  unfold tryMark
  split
  · exact .single (.mark ‹_› own)
  · exact .refl

/-- A cycle under way stays so while everything else changes. -/
theorem IsUnderWay.of_cycles {s t : State} {i : Nat} (h : s.IsUnderWay i)
    (hc : t.cycles = s.cycles) : t.IsUnderWay i := by
  unfold IsUnderWay
  rw [hc]
  exact h

theorem cycles_of_mark {place : Nat} {m : Mark} {s s' : State} (h : s.mark place m = .ok s') :
    s'.cycles = s.cycles := by rw [mark_frame h]

theorem cycles_tryMark (place : Nat) (m : Mark) (s : State) :
    (s.tryMark place m).cycles = s.cycles := by
  unfold tryMark
  split
  · exact cycles_of_mark ‹_›
  · rfl

theorem isRequested_request (c : Cause) (s : State) : (s.request c).2.isRequested = true := by
  rw [request_eq, publishAll_eq]
  exact Shutdown.isRequested_request _ _

theorem isRequested_of_mark {place : Nat} {m : Mark} {s s' : State} (h : s.mark place m = .ok s') :
    s'.isRequested = s.isRequested := by
  rcases mark_cases h with ⟨-, rfl⟩ | ⟨c, c', published, -, -, rfl⟩
  · rfl
  · rw [publishAll_eq]
    rfl

/-- Once the shutdown has begun, a watcher leaves a failure alone. -/
theorem isRequested_onFailed {resource reason : String} {s : State} (h : s.isRequested = true) :
    (s.onFailed S resource reason).state.isRequested = true := by
  unfold onFailed
  rw [if_pos h]
  exact h

/-! ### Cycles -/

section Cycles

variable {i : Nat} {s : State}

theorem changes_endCycle (h : s.IsUnderWay i) :
    Changes S admits (some (.cycle i)) s (s.endCycle i) :=
  changes_enter (.single (.move .finished h (by nofun))) rfl

theorem changes_callHook (place : Nat) (hook : Hook) (exit : Exit) (h : s.IsUnderWay i) :
    Changes S admits (some (.cycle i)) s (s.callHook S i place hook exit) := by
  have counted : ∃ t, Changes S admits (some (.cycle i)) s t ∧ t.IsUnderWay i ∧
      t = if hook = .start then s.modifyMember place fun m ↦ { m with starts := m.starts + 1 }
        else s := by
    split
    · exact ⟨_, .single (.count place), h.of_cycles rfl, rfl⟩
    · exact ⟨_, .refl, h, rfl⟩
  obtain ⟨t, ht, hw, rfl⟩ := counted
  exact changes_enter (ht.tail (.move _ hw (by nofun))) rfl

theorem changes_settle (place : Nat) (exit : Exit) (s : State) :
    Changes S admits (some (.cycle i)) s (s.settle place exit) := by
  unfold settle
  split
  · exact .refl
  · exact changes_tryMark _ (.inl ⟨i, rfl⟩)

theorem cycles_settle (place : Nat) (exit : Exit) (s : State) :
    (s.settle place exit).cycles = s.cycles := by
  unfold settle
  split
  · rfl
  · exact cycles_tryMark _ _ _

theorem changes_leaveHook (place : Nat) (hook : Hook) (result exit : Exit)
    (h : s.IsUnderWay i) :
    Changes S admits (some (.cycle i)) s (s.leaveHook S i place hook result exit) := by
  unfold leaveHook
  dsimp only
  have hw : (s.enter (.returned i hook result)).IsUnderWay i := h.of_cycles rfl
  have returned : Changes S admits (some (.cycle i)) s (s.enter (.returned i hook result)) :=
    changes_enter .refl rfl
  refine returned.trans ?_
  cases hook with
  | start =>
    dsimp only
    split
    · split
      · rename_i s' hm
        exact .trans (.single (.mark hm (.inl ⟨i, rfl⟩)))
          (changes_callHook _ _ _ (hw.of_cycles (cycles_of_mark hm)))
      · exact changes_callHook _ _ _ hw
    · exact changes_callHook _ _ _ hw
  | serve => exact changes_callHook _ _ _ hw
  | stop =>
    exact .trans (changes_settle _ _ _) (changes_endCycle (hw.of_cycles (cycles_settle _ _ _)))

theorem changes_sleepIn (hook : Hook) (a : Act) (rest : List Act) (ms : Nat)
    (wake : Option Nat) (exit : Exit) (h : s.IsUnderWay i) :
    Changes S admits (some (.cycle i)) s (s.sleepIn i hook a rest ms wake exit) := by
  unfold sleepIn
  split <;> split
  · exact .single (.move _ h (by nofun))
  · exact .single (.move _ h (by nofun))
  · exact .single (.move _ h (by nofun))
  · exact .refl

theorem changes_doAct (c : Cycle) (hook : Hook) (a : Act) (rest : List Act) (wake : Option Nat)
    (exit : Exit) (h : s.IsUnderWay i) :
    Changes S admits (some (.cycle i)) s (s.doAct S i c hook a rest wake exit) := by
  cases a with
  | sleep ms => exact changes_sleepIn _ _ _ _ _ _ h
  | wait ms =>
    unfold doAct
    dsimp only
    split
    · exact changes_leaveHook _ _ _ _ h
    · exact changes_sleepIn _ _ _ _ _ _ h
  | untilCancelled =>
    unfold doAct
    dsimp only
    split
    · exact .single (.move _ h (by nofun))
    · exact .refl
  | hang => exact .refl
  | giveUp e => exact changes_leaveHook _ _ _ _ h
  | panic p => exact changes_leaveHook _ _ _ _ h
  | flinch p => exact changes_enter (.single (.move .finished h (by nofun))) rfl
  | mark m =>
    unfold doAct
    dsimp only
    split
    · rename_i s' hm
      exact .tail (.single (.mark hm (.inl ⟨i, rfl⟩)))
        (.move _ (h.of_cycles (cycles_of_mark hm)) (by nofun))
    · exact .tail (changes_enter (h := .noted _ _) .refl trivial)
        (.move _ (h.of_cycles rfl) (by nofun))
  | request cause =>
    have hw : (s.request cause).2.IsUnderWay i :=
      h.of_cycles (by rw [request_eq, publishAll_eq]; rfl)
    exact .tail (changes_enter (h := .noted _ _) (.single (.request cause)) trivial)
      (.move _ (hw.of_cycles rfl) (by nofun))
  | note text =>
    exact .tail (changes_enter (h := .noted _ _) .refl trivial)
      (.move _ (h.of_cycles rfl) (by nofun))

theorem changes_lookIn (place : Nat) (before : Wait) (h : s.IsUnderWay i) :
    Changes S admits (some (.cycle i)) s (s.lookIn S i place before) := by
  unfold lookIn
  dsimp only
  generalize s.ensemble.look s.now before = w
  have seen : ∃ t, Changes S admits (some (.cycle i)) s t ∧ t.IsUnderWay i ∧
      t = if (before.newlyReady w).isEmpty then s
        else s.enter (.sawReady (.cycle i) (before.newlyReady w)) := by
    split
    · exact ⟨_, .refl, h, rfl⟩
    · exact ⟨_, changes_enter (h := .sawReady _ _) .refl rfl, h.of_cycles rfl, rfl⟩
  obtain ⟨t, ht, hw, e⟩ := seen
  rw [← e]
  refine ht.trans ?_
  split
  · exact .single (.move _ hw (by nofun))
  · exact changes_callHook _ _ _ hw
  · exact .trans (changes_tryMark _ (.inl ⟨i, rfl⟩))
      (changes_endCycle (hw.of_cycles (cycles_tryMark _ _ _)))
  · exact .trans (changes_tryMark _ (.inl ⟨i, rfl⟩))
      (changes_endCycle (hw.of_cycles (cycles_tryMark _ _ _)))

theorem changes_stepCycle (i : Nat) (s : State) :
    Changes S admits (some (.cycle i)) s (s.stepCycle S i) := by
  unfold stepCycle
  split
  · exact .refl
  · rename_i c hc
    split
    · rename_i fresh
      split
      · exact .single (.begin hc fresh ‹_›)
      · exact changes_enter (.single (.turnAway hc fresh ‹_›)) rfl
    · rename_i wait? gated
      have hw : s.IsUnderWay i := ⟨c, hc, by simp [gated], by simp [gated]⟩
      split
      · exact .trans (changes_tryMark _ (.inl ⟨i, rfl⟩))
          (changes_endCycle (hw.of_cycles (cycles_tryMark _ _ _)))
      · split
        · exact changes_lookIn _ _ hw
        · dsimp only
          split
          · exact changes_enter (.single (.move .finished hw (by nofun))) rfl
          · exact changes_lookIn _ _ hw
    · rename_i inside
      exact changes_leaveHook _ _ _ _ ⟨c, hc, by simp [inside], by simp [inside]⟩
    · rename_i inside
      exact changes_doAct _ _ _ _ _ _ ⟨c, hc, by simp [inside], by simp [inside]⟩
    · exact .refl

end Cycles

/-! ### Watchers, restarts and confirmations -/

theorem changes_escalate (resource reason : String) (s : State) :
    Changes S admits who s (s.escalate resource reason) := by
  unfold escalate
  split
  · exact .refl
  · exact .single (.request _)

theorem changes_onRunning (i : Nat) (resource : String) (s : State) :
    Changes S admits (some (.watcher i)) s (s.onRunning S resource) := by
  unfold onRunning
  split
  · exact .refl
  · exact .single (.await _)

theorem changes_onEvent (i : Nat) (e : Event) (s : State) :
    Changes S admits (some (.watcher i)) s (s.onEvent S e).state := by
  unfold onEvent
  split
  · split
    · exact .refl
    · dsimp only
      split
      · exact .single (.heed _ _)
      · exact changes_onRunning _ _ _
      · exact changes_escalate _ _ _
      · exact .refl
  · exact .refl

theorem changes_rescanOne (i place : Nat) (s : State) :
    Changes S admits (some (.watcher i)) s (s.rescanOne S place).state := by
  unfold rescanOne
  split
  · exact .refl
  · dsimp only
    split
    · exact .single (.heed _ _)
    · exact changes_escalate _ _ _
    · dsimp only
      split
      · exact changes_onRunning _ _ _
      · exact .refl
    · exact .refl

theorem changes_rescanFrom (i : Nat) (places : List Nat) (s : State) :
    Changes S admits (some (.watcher i)) s (s.rescanFrom S places).state := by
  induction places generalizing s with
  | nil => exact .refl
  | cons place rest ih =>
    have h : Changes S admits _ s _ := changes_rescanOne i place s
    unfold rescanFrom
    split
    · rename_i s' he
      rw [he] at h
      exact h.trans (ih s')
    · exact h

theorem changes_watcherAfter (i : Nat) (w : Watcher) (r : Watched) :
    Changes S admits (some (.watcher i)) r.state (watcherAfter i w r) := by
  unfold watcherAfter
  split
  · exact .refl
  · exact changes_enter (.single (.turn _)) rfl

theorem changes_stepWatcher (i : Nat) (s : State) :
    Changes S admits (some (.watcher i)) s (s.stepWatcher S i) := by
  unfold stepWatcher
  split
  · exact .refl
  · split
    · exact .refl
    · split
      · exact changes_enter (.single (.turn _)) rfl
      · split
        · exact .refl
        · exact .trans (.single (.turn _))
            (.trans (changes_onEvent _ _ _) (changes_watcherAfter _ _ _))
        · exact .trans (.single (.turn _))
            (.trans (changes_rescanFrom _ _ _) (changes_watcherAfter _ _ _))

/-- A restart that goes on makes one change. -/
theorem change_stepRestart (i : Nat) (s : State) :
    s.stepRestart i = s ∨ Change S admits (some (.restart i)) s (s.stepRestart i) := by
  unfold stepRestart
  split
  · exact .inl rfl
  · rename_i r hr
    obtain ⟨place, stage⟩ := r
    dsimp only
    split
    · split
      · rename_i due
        exact .inr (.release hr rfl (by simpa [RestartStage.isDue] using due))
      · exact .inr (.sleep hr)
    · split
      · rename_i due
        exact .inr (.release hr rfl (by simpa [RestartStage.isDue] using due))
      · exact .inl rfl
    · split
      · exact .inr (.respawn hr ‹_›)
      · exact .inl rfl
    · exact .inl rfl

theorem changes_stepRestart (i : Nat) (s : State) :
    Changes S admits (some (.restart i)) s (s.stepRestart i) := by
  have single : _ ∨ Change S admits _ _ _ := change_stepRestart i s
  rcases single with e | h
  · rw [e]
  · exact .single h

theorem changes_confirmIn {i : Nat} {before : Wait} {s : State} {c : Confirmation}
    (hc : s.confirmations[i]? = some c)
    (hb : c.stage = .waiting before ∨ before = .start s.now S.settings.confirmTimeout [c.place]) :
    Changes S admits (some (.confirmation i)) s (s.confirmIn S i c.place before) := by
  unfold confirmIn
  dsimp only
  split
  · rename_i unseen
    exact .single (.linger hc unseen hb)
  · rename_i ready
    have hc' : (s.enter (.sawReady (.confirmation i) [c.place])).confirmations[i]? = some c := hc
    have saw : Changes S admits (some (.confirmation i)) s
        (s.enter (.sawReady (.confirmation i) [c.place])) :=
      changes_enter .refl rfl
    exact changes_enter (.tail (saw.tail (.confirm hc' ready hb)) .leave) rfl
  · exact changes_enter (.single .leave) rfl

theorem changes_stepConfirmation (i : Nat) (s : State) :
    Changes S admits (some (.confirmation i)) s (s.stepConfirmation S i) := by
  unfold stepConfirmation
  split
  · exact .refl
  · rename_i c hc
    split
    · exact changes_confirmIn hc (.inr rfl)
    · exact changes_confirmIn hc (.inl ‹_›)
    · exact .refl

/-! ### The relay, the workers and the record store -/

theorem changes_stepRelay (s : State) : Changes S admits (some .relay) s (s.stepRelay S) := by
  unfold stepRelay
  split
  · exact .refl
  · rename_i r hr
    split
    · split
      · rename_i e next he
        exact changes_publishAll
          (changes_enter (.single (.aside _ _ _ _ _ (.inr ⟨_, rfl, rfl⟩) (.inl rfl))) rfl)
          fun x hx ↦ .inr (Fanout.emit_reports hx).1
      · exact changes_enter (.single (.aside _ _ _ _ _ (.inr ⟨_, rfl, rfl⟩) (.inl rfl))) rfl
      · split
        · exact .single (.aside _ _ _ _ _ (.inr ⟨_, rfl, rfl⟩) (.inl rfl))
        · exact .refl
    · split
      · exact changes_enter (.single (.aside _ _ _ _ _ (.inr ⟨_, rfl, rfl⟩) (.inl rfl))) rfl
      · exact .refl
    · exact .refl

theorem changes_stepWorker (i : Nat) (s : State) :
    Changes S admits (some (.worker i)) s (s.stepWorker S i) := by
  have reports : Changes S admits (some (.worker i)) s
      ({ s with fanout := (s.fanout.step S.subscribers s.now i).1 }.publishAll
        (s.fanout.step S.subscribers s.now i).2) := by
    exact changes_publishAll (.single (.aside _ _ _ _ _ (.inr ⟨_, rfl, rfl⟩) (.inl rfl)))
      fun x hx ↦ .inl (Fanout.kind_of_mem_step hx)
  unfold stepWorker
  dsimp only
  split
  · split
    · exact reports.tail (.aside _ _ _ _ _ (.inr ⟨_, rfl, rfl⟩) (.inr ⟨_, rfl, rfl⟩))
    · exact reports
  · exact reports

/-! ### The host -/

theorem changes_startCycles (s : State) (places : List Nat) (h : s.host = .fresh)
    (hp : ∀ p ∈ places, p < S.posts.size) :
    Changes S admits (some .host) s (places.foldl (fun s place ↦ s.startCycle place) s) := by
  induction places generalizing s with
  | nil => exact .refl
  | cons place rest ih =>
    exact .trans (.single (.spawn h (hp place List.mem_cons_self)))
      (ih (s.startCycle place) h fun p hm ↦ hp p (List.mem_cons_of_mem _ hm))

theorem changes_beginRun (s : State) (h : s.host = .fresh) :
    Changes S admits (some .host) s (s.beginRun S) := by
  have listen : ∃ t, Changes S admits (some .host) s t ∧ t.host = .fresh ∧
      t.ensemble = s.ensemble ∧
      t = if s.relay.isNone then
        { s with relay := some { next := s.ensemble.bus.size } }.enter (.started .relay)
      else s := by
    split
    · exact ⟨_, changes_enter (h := .started .relay)
        (.single (.aside _ _ _ _ _ (.inr ⟨_, rfl, rfl⟩) (.inl rfl))) trivial, h, rfl, rfl⟩
    · exact ⟨_, .refl, h, rfl, rfl⟩
  obtain ⟨t, ht, hh, he, e⟩ := listen
  unfold beginRun
  dsimp only
  rw [← e, ← he]
  have watched := changes_enter (h := .started (.watcher t.watchers.size))
    (ht.tail (.watch hh)) trivial
  have started := watched.trans (changes_startCycles _ (List.range S.posts.size) hh
    fun p hm ↦ List.mem_range.1 hm)
  generalize List.foldl _ _ (List.range S.posts.size) = u at started ⊢
  have listens : Changes S admits (some .host) s { u with signalled := u.deaf.isSome } :=
    started.tail (.aside _ _ _ _ _ (.inr ⟨_, rfl, rfl⟩) (.inl rfl))
  exact listens.tail (.advance _ (by nofun) (by nofun))

theorem changes_endStopping (run : Shutting) (s : State) :
    Changes S admits (some .host) s (s.endStopping run) := by
  unfold endStopping
  dsimp only
  have noted : Changes S admits (some .host) s (s.enter (.stopped run.stuck)) :=
    changes_enter .refl rfl
  refine .tail (noted.tail (.report _ ?_ fun _ ↦ rfl)) (.advance _ (by nofun) (by nofun))
  split <;> rfl

theorem changes_stopFrom (run : Shutting) (deadline : Nat) (told : Bool)
    (left : List (Nat × Nat)) (s : State) (h : s.stopping = true) :
    Changes S admits (some .host) s (s.stopFrom S run deadline told left) := by
  have step := stopStep_stopFrom S run deadline told left s
  generalize s.stopFrom S run deadline told left = t at step ⊢
  induction step with
  | ends run _ s => exact changes_endStopping run s
  | tells _ ih => exact .trans (.single (.cancel _)) (ih h)
  | skips _ _ ih => exact ih h
  | aborts _ _ _ ih => exact .trans (.single (.abort _ h)) (ih h)
  | waits => exact .single (.advance _ (by nofun) fun _ _ _ _ ↦ h)

theorem changes_hear (s : State) : Changes S admits (some .host) s s.hear := by
  unfold hear
  split
  · exact .refl
  · exact .single (.request _)

theorem isRequested_hear (s : State) : s.hear.isRequested = true := by
  unfold hear
  split
  · assumption
  · exact isRequested_request s.unaskedCause s

theorem changes_beginStop (watcher : Nat) (hasRelay : Bool) (s : State) :
    Changes S admits (some .host) s (s.beginStop S watcher hasRelay) := by
  have shut : Changes S admits (some .host) s s.hear.close :=
    (changes_hear s).tail (.close (isRequested_hear s))
  cases far : S.settings.grace.isBeyondClocks with
  | true =>
    rw [beginStop_of_far far]
    exact changes_enter (shut.tail (.advance _ (by nofun) (by nofun))) rfl
  | false =>
    rw [beginStop_of_near far]
    exact shut.trans (changes_stopFrom _ _ _ _ _ rfl)

theorem changes_conclude (run : Shutting) (s : State) :
    Changes S admits (some .host) s (s.conclude S run) := by
  unfold conclude
  dsimp only
  split
  · exact .single (.advance _ (by nofun) (by nofun))
  · rename_i r hr
    split
    · exact .single (.advance _ (by nofun) (by nofun))
    · have told : Changes S admits (some .host) s { s with recorder := some r.beginFinish } :=
        .single (.aside _ _ _ _ _ (.inr ⟨_, rfl, rfl⟩) (.inr ⟨_, rfl, rfl⟩))
      exact told.tail (.advance _ (by nofun) (by nofun))

theorem changes_closeSession (ending : SessionEnd) (s : State) :
    Changes S admits (some .host) s (s.closeSession S ending).2 := by
  unfold closeSession
  split
  · exact .refl
  · exact .single (.aside _ _ _ _ _ (.inr ⟨_, rfl, rfl⟩) (.inr ⟨_, rfl, rfl⟩))

theorem changes_endRun (result : RunEnd) (s : State) :
    Changes S admits (some .host) s (s.endRun result) :=
  changes_enter (.single (.advance _ (by nofun) (by nofun))) rfl

theorem changes_stepClosing (result : RunEnd) (ending : Option SessionEnd) (s : State) :
    Changes S admits (some .host) s (s.stepClosing S result ending) := by
  cases ending with
  | none => exact changes_endRun _ _
  | some ending => exact .trans (changes_closeSession ending s) (changes_endRun _ _)

theorem changes_stepHost (s : State) (h : s.IsOrderly) :
    Changes S admits (some .host) s (s.stepHost S) := by
  unfold stepHost
  split
  · exact .refl
  · exact .refl
  · exact changes_beginRun _ ‹_›
  · split
    · exact changes_beginStop _ _ _
    · exact .refl
  · exact changes_stopFrom _ _ _ _ _ (h.stopping _ _ _ ‹_›)
  · split
    · split
      · have told : Changes S admits (some .host) s
            { s with relay := s.relay.map fun r ↦ { r with stop := true } } :=
          .single (.aside _ _ _ _ _ (.inr ⟨_, rfl, rfl⟩) (.inl rfl))
        exact told.tail (.advance _ (by nofun) (by nofun))
      · exact changes_conclude _ _
    · exact .refl
  · split
    · exact changes_conclude _ _
    · exact .refl
  · split
    · exact changes_stepClosing _ _ _
    · exact .refl

/-! ### Steps and deeds -/

/-- **A step of a task is a chain of its changes.** -/
theorem changes_step (t : Task) (s : State) (h : s.IsOrderly) :
    Changes S admits (some t) s (s.step S t) := by
  cases t with
  | host => exact changes_stepHost _ h
  | watcher i => exact changes_stepWatcher _ _
  | relay => exact changes_stepRelay _
  | worker i => exact changes_stepWorker _ _
  | cycle i => exact changes_stepCycle _ _
  | restart i => exact changes_stepRestart _ _
  | confirmation i => exact changes_stepConfirmation _ _
  | writer => exact .single (.aside _ _ _ _ _ (.inl ⟨rfl, rfl⟩) (.inr ⟨_, rfl, rfl⟩))
  | keeper => exact .single (.aside _ _ _ _ _ (.inl ⟨rfl, rfl⟩) (.inr ⟨_, rfl, rfl⟩))

/-- **A deed is a chain of changes made from outside.** -/
theorem changes_undergo (d : Deed) (s : State) (h : admits d) :
    Changes S admits none s (s.undergo d) := by
  cases d with
  | request c => exact .single (.request c)
  | signal => exact .single (.aside _ _ _ _ _ (.inl ⟨rfl, rfl⟩) (.inl rfl))
  | deafen why =>
    obtain ⟨deaf, same⟩ := exists_undergo_deafen why s
    exact same ▸ .single (.aside _ _ _ _ _ (.inl ⟨rfl, rfl⟩) (.inl rfl))
  | publish e => exact .single (.publish e h)
  | mark place m => exact changes_tryMark _ (.inr ⟨rfl, h⟩)
  | call =>
    unfold undergo
    dsimp only
    split
    · exact changes_enter (h := .started .host) (.single (.call h)) trivial
    · exact .refl
  | abandon =>
    unfold undergo
    dsimp only
    split
    · exact .refl
    · exact .single (.abandon h)

end State

/-! ### The order of a run is kept -/

variable {S : Setup} {admits : Deed → Prop} {who : Option Task} {s s' : State}

/-- The shutdown is never called off. -/
theorem Change.isRequested (h : Change S admits who s s') (hr : s.isRequested = true) :
    s'.isRequested = true := by
  cases h with
  | request c => exact State.isRequested_request c s
  | mark hm own => exact (State.isRequested_of_mark hm).trans hr
  | begin hc fresh hm => exact (State.isRequested_of_mark hm).trans hr
  | heed resource reason => exact State.isRequested_onFailed hr
  | release h waits due => rw [State.release_frame]; exact hr
  | respawn h gone => rw [State.respawn_frame]; exact hr
  | confirm hc h hb => rw [State.confirm_frame]; exact hr
  | _ => exact hr

/-- Only the host sees to it that no cycle may be started any more, and only after the shutdown has
begun. -/
theorem Change.stopping (h : Change S admits who s s') :
    s'.stopping = s.stopping ∨
      who = some .host ∧ s.isRequested = true ∧ s'.stopping = true := by
  cases h with
  | close hr => exact .inr ⟨rfl, hr, rfl⟩
  | request c => rw [State.request_frame]; exact .inl rfl
  | mark hm own => rw [State.mark_frame hm]; exact .inl rfl
  | begin hc fresh hm => rw [State.mark_frame hm]; exact .inl rfl
  | heed resource reason => rw [State.onFailed_frame]; exact .inl rfl
  | release h waits due => rw [State.release_frame]; exact .inl rfl
  | respawn h gone => rw [State.respawn_frame]; exact .inl rfl
  | confirm hc h hb => rw [State.confirm_frame]; exact .inl rfl
  | _ => exact .inl rfl

/-- Where the host stands changes by the host, or from outside by asking for a run or giving it
up. -/
theorem Change.host (h : Change S admits who s s') :
    s'.host = s.host ∨
      (who = some .host ∧ s'.host ≠ .fresh ∧
        ∀ run deadline left, s'.host = .stopping run deadline left → s'.stopping = true) ∨
      (who = none ∧
        (admits .abandon ∧ s'.host = .absent ∨ admits .call ∧ s'.host = .fresh)) := by
  cases h with
  | advance stage fresh hs => exact .inr (.inl ⟨rfl, fresh, hs⟩)
  | call h => exact .inr (.inr ⟨rfl, .inr ⟨h, rfl⟩⟩)
  | abandon h => exact .inr (.inr ⟨rfl, .inl ⟨h, rfl⟩⟩)
  | request c => rw [State.request_frame]; exact .inl rfl
  | mark hm own => rw [State.mark_frame hm]; exact .inl rfl
  | begin hc fresh hm => rw [State.mark_frame hm]; exact .inl rfl
  | heed resource reason => rw [State.onFailed_frame]; exact .inl rfl
  | release h waits due => rw [State.release_frame]; exact .inl rfl
  | respawn h gone => rw [State.respawn_frame]; exact .inl rfl
  | confirm hc h hb => rw [State.confirm_frame]; exact .inl rfl
  | _ => exact .inl rfl

/-- Once no cycle may be started, none may be for good. -/
theorem Change.stopping_mono (h : Change S admits who s s') (hs : s.stopping = true) :
    s'.stopping = true := by
  rcases h.stopping with same | ⟨-, -, closed⟩
  · exact same.trans hs
  · exact closed

theorem Change.isOrderly (h : Change S admits who s s') (ho : s.IsOrderly) : s'.IsOrderly where
  requested hs := by
    rcases h.stopping with same | ⟨-, hr, -⟩
    · exact h.isRequested (ho.requested (same ▸ hs))
    · exact h.isRequested hr
  stopping run deadline left hh := by
    rcases h.host with he | ⟨-, -, hs⟩ | ⟨-, ⟨-, he⟩ | ⟨-, he⟩⟩
    · exact h.stopping_mono (ho.stopping run deadline left (he ▸ hh))
    · exact hs run deadline left hh
    · rw [he] at hh; cases hh
    · rw [he] at hh; cases hh

/-- What every change of the order of a run keeps, chains of changes keep. -/
theorem Changes.keeps {P : State → Prop} (change : ∀ {t t'}, t.IsOrderly → P t →
      Change S admits who t t' → P t')
    (h : Changes S admits who s s') (ho : s.IsOrderly) (hP : P s) : s'.IsOrderly ∧ P s' := by
  induction h with
  | refl => exact ⟨ho, hP⟩
  | tail _ last ih => exact ⟨last.isOrderly ih.1, change ih.1 ih.2 last⟩

/-- A step is one of certain tasks, or a chain of changes that none of these makes. -/
theorem Step.turn_or_changes (h : Step S admits s s') (ho : s.IsOrderly) (These : Task → Prop) :
    (∃ t, These t ∧ s' = s.step S t) ∨
      ∃ who, (∀ t, These t → who ≠ some t) ∧ Changes S admits who s s' := by
  cases h with
  | turn t _ =>
    by_cases this : These t
    · exact .inl ⟨t, this, rfl⟩
    · refine .inr ⟨some t, fun k hk same ↦ this ?_, State.changes_step t s ho⟩
      exact Option.some.inj same ▸ hk
  | deed d hd => exact .inr ⟨none, by nofun, State.changes_undergo d s hd⟩
  | pass moment later _ _ => exact .inr ⟨none, by nofun, .single (.pass moment later)⟩

/-- Every step is a chain of changes, made by one task or from outside. -/
theorem Step.changes (h : Step S admits s s') (ho : s.IsOrderly) :
    ∃ who, Changes S admits who s s' := by
  rcases h.turn_or_changes ho (fun _ ↦ False) with ⟨t, none, -⟩ | ⟨who, -, hc⟩
  · exact none.elim
  · exact ⟨who, hc⟩

theorem Step.isOrderly (h : Step S admits s s') (ho : s.IsOrderly) : s'.IsOrderly := by
  obtain ⟨who, hc⟩ := h.changes ho
  exact (hc.keeps (P := fun _ ↦ True) (fun _ _ _ ↦ trivial) ho trivial).1

theorem Reaches.trans {u : State} (h : Reaches S admits s s') (h' : Reaches S admits s' u) :
    Reaches S admits s u := by
  induction h' with
  | refl => exact h
  | step before last ih => exact ih.step last

/-- **What every change keeps is kept for good.** -/
theorem Reaches.keeps_changes {P : State → Prop}
    (change : ∀ {who t t'}, t.IsOrderly → P t → Change S admits who t t' → P t')
    (h : Reaches S admits s s') (ho : s.IsOrderly) (hP : P s) : s'.IsOrderly ∧ P s' := by
  induction h with
  | refl => exact ⟨ho, hP⟩
  | step _ last ih =>
    obtain ⟨who, hc⟩ := last.changes ih.1
    exact hc.keeps change ih.1 ih.2

theorem State.isOrderly_initial (S : Setup) (bus : Bus) (recorder : Option Recorder) (now : Nat) :
    (State.initial S bus recorder now).IsOrderly where
  requested := nofun
  stopping := nofun

end Supervision
