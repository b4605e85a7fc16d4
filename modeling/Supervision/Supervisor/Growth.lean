import Supervision.Supervisor.Step

/-!
# Nothing is taken back

Whatever a task does, and whatever is done to a supervisor, the chronicle and the record of the bus
only grow (`Step.grows`, `Reaches.grows`). So a happening that was entered stays entered, and what a
receiver has still to get stays the same.
-/

namespace Supervision

namespace State

namespace Grows

theorem refl (s : State) : Grows s s := ⟨⟨#[], by simp⟩, ⟨#[], by simp⟩⟩

theorem trans {s₁ s₂ s₃ : State} (h : Grows s₁ s₂) (h' : Grows s₂ s₃) : Grows s₁ s₃ := by
  obtain ⟨⟨c, hc⟩, ⟨b, hb⟩⟩ := h
  obtain ⟨⟨c', hc'⟩, ⟨b', hb'⟩⟩ := h'
  exact ⟨⟨c ++ c', by rw [hc', hc, Array.append_assoc]⟩,
    ⟨b ++ b', by rw [hb', hb, Array.append_assoc]⟩⟩

/-- What touches neither the chronicle nor the bus takes nothing back. -/
theorem of_eq {s s' : State} (hc : s'.chronicle = s.chronicle)
    (hb : s'.ensemble.bus.sent = s.ensemble.bus.sent) : Grows s s' :=
  ⟨⟨#[], by simp [hc]⟩, ⟨#[], by simp [hb]⟩⟩

end Grows

/-! ### Small operations -/

theorem grows_enter (h : Happening) (s : State) : Grows s (s.enter h) :=
  ⟨⟨#[⟨s.now, h⟩], by simp [enter]⟩, ⟨#[], by simp [enter]⟩⟩

theorem grows_enterAll (events : List Event) (s : State) : Grows s (s.enterAll events) := by
  induction events generalizing s with
  | nil => exact .refl s
  | cons e es ih => exact (grows_enter _ s).trans (ih _)

theorem grows_publish (e : Event) (s : State) : Grows s (s.publish e) := by
  have h : Grows s { s with ensemble := s.ensemble.publish [e] } :=
    ⟨⟨#[], by simp⟩, ⟨#[e], Ensemble.sent_publish _ _⟩⟩
  exact h.trans (grows_enter _ _)

theorem grows_publishAll (events : List Event) (s : State) : Grows s (s.publishAll events) := by
  induction events generalizing s with
  | nil => exact .refl s
  | cons e es ih => exact (grows_publish e s).trans (ih _)

/-- An entry more takes nothing back. -/
theorem Grows.enter {s t : State} {h : Happening} (g : Grows s t) : Grows s (t.enter h) :=
  g.trans (grows_enter h t)

/-- An event more takes nothing back. -/
theorem Grows.publish {s t : State} {e : Event} (g : Grows s t) : Grows s (t.publish e) :=
  g.trans (grows_publish e t)

/-- More events take nothing back. -/
theorem Grows.publishAll {s t : State} {events : List Event} (g : Grows s t) :
    Grows s (t.publishAll events) := g.trans (grows_publishAll events t)

theorem grows_request (c : Cause) (s : State) : Grows s (s.request c).2 := by
  have h : Grows s { s with ensemble := (s.ensemble.request c).2.2 } :=
    ⟨⟨#[], by simp⟩, ⟨_, Ensemble.sent_publish _ _⟩⟩
  exact (h.trans (grows_enterAll _ _)).trans (grows_enter _ _)

theorem grows_mark {place : Nat} {m : Mark} {s s' : State} (h : s.mark place m = .ok s') :
    Grows s s' := by
  unfold mark at h
  split at h
  · cases h
  · rename_i events e' he
    cases h
    have : Grows s { s with ensemble := e' } :=
      ⟨⟨#[], by simp⟩, ⟨_, Ensemble.mark_publishes he⟩⟩
    exact this.trans (grows_enterAll _ _)

theorem grows_tryMark (place : Nat) (m : Mark) (s : State) : Grows s (s.tryMark place m) := by
  unfold tryMark
  split
  · exact grows_mark ‹_›
  · exact .refl s

theorem grows_modifyMember (place : Nat) (f : Member → Member) (s : State) :
    Grows s (s.modifyMember place f) := .of_eq rfl rfl

theorem grows_setAccount (place : Nat) (a : Account) (s : State) :
    Grows s (s.setAccount place a) := .of_eq rfl rfl

theorem grows_setCycle (i : Nat) (stage : CycleStage) (s : State) :
    Grows s (s.setCycle i stage) := .of_eq rfl rfl

theorem grows_setRestart (i : Nat) (stage : RestartStage) (s : State) :
    Grows s (s.setRestart i stage) := .of_eq rfl rfl

theorem grows_setConfirmation (i : Nat) (stage : ConfirmationStage) (s : State) :
    Grows s (s.setConfirmation i stage) := .of_eq rfl rfl

theorem grows_cancelCycle (i : Nat) (s : State) : Grows s (s.cancelCycle i) :=
  .enter (.of_eq rfl rfl)

theorem grows_startCycle (place : Nat) (s : State) : Grows s (s.startCycle place) :=
  .enter (.of_eq rfl rfl)

theorem grows_startRestart (place : Nat) (delay : Span) (s : State) :
    Grows s (s.startRestart place delay) := .enter (.of_eq rfl rfl)

theorem grows_startConfirmation (place : Nat) (s : State) :
    Grows s (s.startConfirmation place) := .enter (.of_eq rfl rfl)

/-! ### Cycles -/

theorem grows_endCycle (i : Nat) (s : State) : Grows s (s.endCycle i) :=
  .enter (.of_eq rfl rfl)

theorem grows_callHook (S : Setup) (i place : Nat) (hook : Hook) (exit : Exit) (s : State) :
    Grows s (s.callHook S i place hook exit) := by
  have h : Grows s (if hook = .start then s.modifyMember place
      fun m ↦ { m with starts := m.starts + 1 } else s) := by
    split
    · exact grows_modifyMember _ _ _
    · exact .refl s
  exact (h.trans (grows_setCycle _ _ _)).enter

theorem grows_settle (place : Nat) (exit : Exit) (s : State) : Grows s (s.settle place exit) := by
  unfold settle
  split
  · exact .refl s
  · exact grows_tryMark _ _ _

theorem grows_leaveHook (S : Setup) (i place : Nat) (hook : Hook) (result exit : Exit)
    (s : State) : Grows s (s.leaveHook S i place hook result exit) := by
  unfold leaveHook
  dsimp only
  refine .trans (grows_enter (.returned i hook result) s) ?_
  cases hook with
  | start =>
    dsimp only
    split
    · split
      · exact .trans (grows_mark ‹_›) (grows_callHook _ _ _ _ _ _)
      · exact grows_callHook _ _ _ _ _ _
    · exact grows_callHook _ _ _ _ _ _
  | serve => exact grows_callHook _ _ _ _ _ _
  | stop => exact .trans (grows_settle _ _ _) (grows_endCycle _ _)

theorem grows_sleepIn (i : Nat) (hook : Hook) (a : Act) (rest : List Act) (ms : Nat)
    (wake : Option Nat) (exit : Exit) (s : State) :
    Grows s (s.sleepIn i hook a rest ms wake exit) := by
  unfold sleepIn
  split <;> split
  · exact grows_setCycle _ _ _
  · exact grows_setCycle _ _ _
  · exact grows_setCycle _ _ _
  · exact .refl s

theorem grows_doAct (S : Setup) (i : Nat) (c : Cycle) (hook : Hook) (a : Act) (rest : List Act)
    (wake : Option Nat) (exit : Exit) (s : State) :
    Grows s (s.doAct S i c hook a rest wake exit) := by
  cases a with
  | sleep ms => exact grows_sleepIn _ _ _ _ _ _ _ _
  | wait ms =>
    unfold doAct
    dsimp only
    split
    · exact grows_leaveHook _ _ _ _ _ _ _
    · exact grows_sleepIn _ _ _ _ _ _ _ _
  | untilCancelled =>
    unfold doAct
    dsimp only
    split
    · exact grows_setCycle _ _ _
    · exact .refl s
  | hang => exact .refl s
  | giveUp e => exact grows_leaveHook _ _ _ _ _ _ _
  | panic p => exact grows_leaveHook _ _ _ _ _ _ _
  | flinch p => exact .trans (grows_setCycle _ _ _) (grows_enter _ _)
  | mark m =>
    unfold doAct
    dsimp only
    split
    · exact .trans (grows_mark ‹_›) (grows_setCycle _ _ _)
    · exact .trans (grows_enter _ _) (grows_setCycle _ _ _)
  | request cause =>
    exact .trans (.trans (grows_request _ _) (grows_enter _ _)) (grows_setCycle _ _ _)
  | note text => exact .trans (grows_enter _ _) (grows_setCycle _ _ _)

theorem grows_lookIn (S : Setup) (i place : Nat) (before : Wait) (s : State) :
    Grows s (s.lookIn S i place before) := by
  unfold lookIn
  dsimp only
  generalize s.ensemble.look s.now before = w
  have h : Grows s (if (before.newlyReady w).isEmpty then s
      else s.enter (.sawReady (.cycle i) (before.newlyReady w))) := by
    split
    · exact .refl s
    · exact grows_enter _ _
  generalize (if (before.newlyReady w).isEmpty then s
    else s.enter (.sawReady (.cycle i) (before.newlyReady w))) = t at h ⊢
  refine h.trans ?_
  split
  · exact grows_setCycle _ _ _
  · exact grows_callHook _ _ _ _ _ _
  · exact .trans (grows_tryMark _ _ _) (grows_endCycle _ _)
  · exact .trans (grows_tryMark _ _ _) (grows_endCycle _ _)

theorem grows_stepCycle (S : Setup) (i : Nat) (s : State) : Grows s (s.stepCycle S i) := by
  unfold stepCycle
  split
  · exact .refl s
  · split
    · split
      · exact .trans (grows_mark ‹_›) (grows_setCycle _ _ _)
      · exact grows_endCycle _ _
    · split
      · exact .trans (grows_tryMark _ _ _) (grows_endCycle _ _)
      · split
        · exact grows_lookIn _ _ _ _ _
        · dsimp only
          split
          · exact .trans (grows_setCycle _ _ _) (grows_enter _ _)
          · exact grows_lookIn _ _ _ _ _
    · exact grows_leaveHook _ _ _ _ _ _ _
    · exact grows_doAct _ _ _ _ _ _ _ _ _
    · exact .refl s

/-! ### Watchers, restarts and confirmations -/

theorem grows_escalate (resource reason : String) (s : State) :
    Grows s (s.escalate resource reason) := by
  unfold escalate
  split
  · exact .refl s
  · exact grows_request _ _

theorem grows_judge {S : Setup} {place : Nat} {d : Decision} {s t : State}
    (h : s.judge S place = .ok (d, t)) : Grows s t := by
  unfold judge at h
  dsimp only at h
  split at h
  · cases h
  · split at h
    all_goals
      cases h
      exact .of_eq rfl rfl

theorem grows_announce (resource reason : String) (place : Nat) (d : Decision) (s : State) :
    Grows s (s.announce resource reason place d) := by
  cases d with
  | handled => exact .refl s
  | pending => exact .refl s
  | exhausted attempts => exact .trans (grows_publish _ _) (grows_escalate _ _ _)
  | restart attempt delay => exact .trans (grows_publish _ _) (grows_startRestart _ _ _)

theorem grows_onFailed (S : Setup) (resource reason : String) (s : State) :
    Grows s (s.onFailed S resource reason).state := by
  unfold onFailed
  split
  · exact .refl s
  · split
    · exact .refl s
    · split
      · exact .refl s
      · exact .trans (grows_judge ‹_›) (grows_announce _ _ _ _ _)

theorem grows_onRunning (S : Setup) (resource : String) (s : State) :
    Grows s (s.onRunning S resource) := by
  unfold onRunning
  split
  · exact .refl s
  · exact grows_startConfirmation _ _

theorem grows_onEvent (S : Setup) (e : Event) (s : State) : Grows s (s.onEvent S e).state := by
  unfold onEvent
  split
  · split
    · exact .refl s
    · dsimp only
      split
      · exact grows_onFailed _ _ _ _
      · exact grows_onRunning _ _ _
      · exact grows_escalate _ _ _
      · exact .refl s
  · exact .refl s

theorem grows_rescanOne (S : Setup) (place : Nat) (s : State) :
    Grows s (s.rescanOne S place).state := by
  unfold rescanOne
  split
  · exact .refl s
  · dsimp only
    split
    · exact grows_onFailed _ _ _ _
    · exact grows_escalate _ _ _
    · dsimp only
      split
      · exact grows_onRunning _ _ _
      · exact .refl s
    · exact .refl s

theorem grows_rescanFrom (S : Setup) (places : List Nat) (s : State) :
    Grows s (s.rescanFrom S places).state := by
  induction places generalizing s with
  | nil => exact .refl s
  | cons place rest ih =>
    have h := grows_rescanOne S place s
    unfold rescanFrom
    split
    · rename_i s' he
      rw [he] at h
      exact h.trans (ih s')
    · exact h

theorem grows_setWatcher (i : Nat) (w : Watcher) (s : State) : Grows s (s.setWatcher i w) :=
  .of_eq rfl rfl

theorem grows_watcherAfter (i : Nat) (w : Watcher) (r : Watched) :
    Grows r.state (watcherAfter i w r) := by
  unfold watcherAfter
  split
  · exact .refl _
  · exact .trans (grows_setWatcher _ _ _) (grows_enter _ _)

theorem grows_stepWatcher (S : Setup) (i : Nat) (s : State) : Grows s (s.stepWatcher S i) := by
  unfold stepWatcher
  split
  · exact .refl s
  · split
    · exact .refl s
    · split
      · exact .trans (grows_setWatcher _ _ _) (grows_enter _ _)
      · split
        · exact .refl s
        · exact .trans (grows_setWatcher _ _ _)
            (.trans (grows_onEvent _ _ _) (grows_watcherAfter _ _ _))
        · exact .trans (grows_setWatcher _ _ _)
            (.trans (grows_rescanFrom _ _ _) (grows_watcherAfter _ _ _))

theorem grows_endRestart (i : Nat) (s : State) : Grows s (s.endRestart i) :=
  .trans (grows_setRestart _ _ _) (grows_enter _ _)

theorem grows_respawn (i place : Nat) (s : State) : Grows s (s.respawn i place) := by
  unfold respawn
  split
  · exact grows_endRestart _ _
  · exact .trans (grows_startCycle _ _) (grows_endRestart _ _)

theorem grows_release (i place : Nat) (s : State) : Grows s (s.release i place) := by
  unfold release
  refine .trans (grows_setAccount place (s.account place).release s) ?_
  dsimp only
  split
  · exact grows_endRestart _ _
  · split
    · exact .trans (grows_modifyMember _ _ _)
        (.trans (grows_cancelCycle _ _) (grows_setRestart _ _ _))
    · exact grows_respawn _ _ _

theorem grows_stepRestart (i : Nat) (s : State) : Grows s (s.stepRestart i) := by
  unfold stepRestart
  split
  · exact .refl s
  · split
    · split
      · exact grows_release _ _ _
      · exact grows_setRestart _ _ _
    · split
      · exact grows_release _ _ _
      · exact .refl s
    · split
      · exact grows_respawn _ _ _
      · exact .refl s
    · exact .refl s

theorem grows_endConfirmation (i : Nat) (s : State) : Grows s (s.endConfirmation i) :=
  .trans (grows_setConfirmation _ _ _) (grows_enter _ _)

theorem grows_confirm (S : Setup) (place : Nat) (s : State) : Grows s (s.confirm S place) := by
  unfold confirm
  split
  · refine .trans (grows_setAccount place (s.account place).recover s) ?_
    dsimp only
    unfold tellRecovery
    split
    · exact grows_publish _ _
    · exact .of_eq rfl rfl
  · exact .refl s

theorem grows_confirmIn (S : Setup) (i place : Nat) (before : Wait) (s : State) :
    Grows s (s.confirmIn S i place before) := by
  unfold confirmIn
  dsimp only
  split
  · exact grows_setConfirmation _ _ _
  · exact .trans (grows_enter _ _) (.trans (grows_confirm _ _ _) (grows_endConfirmation _ _))
  · exact grows_endConfirmation _ _

theorem grows_stepConfirmation (S : Setup) (i : Nat) (s : State) :
    Grows s (s.stepConfirmation S i) := by
  unfold stepConfirmation
  split
  · exact .refl s
  · split
    · exact grows_confirmIn _ _ _ _ _
    · exact grows_confirmIn _ _ _ _ _
    · exact .refl s

/-! ### The relay, the workers and the record store -/

theorem grows_stepRelay (S : Setup) (s : State) : Grows s (s.stepRelay S) := by
  unfold stepRelay
  split
  · exact .refl s
  · split
    · split
      · exact .publishAll (.enter (.of_eq rfl rfl))
      · exact .enter (.of_eq rfl rfl)
      · split
        · exact .of_eq rfl rfl
        · exact .refl s
    · split
      · exact .enter (.of_eq rfl rfl)
      · exact .refl s
    · exact .refl s

theorem grows_stepWorker (S : Setup) (i : Nat) (s : State) : Grows s (s.stepWorker S i) := by
  unfold stepWorker
  dsimp only
  have h : ∀ (fanout : Fanout) (reports : List Event),
      Grows s ({ s with fanout := fanout }.publishAll reports) :=
    fun _ _ ↦ .publishAll (.of_eq rfl rfl)
  split
  · split
    · exact .trans (h _ _) (.of_eq rfl rfl)
    · exact h _ _
  · exact h _ _

theorem grows_stepWriter (s : State) : Grows s s.stepWriter := .of_eq rfl rfl

theorem grows_stepKeeper (S : Setup) (s : State) : Grows s (s.stepKeeper S) := .of_eq rfl rfl

/-! ### The host -/

theorem grows_beginRun (S : Setup) (s : State) : Grows s (s.beginRun S) := by
  have start : ∀ (places : List Nat) (t : State),
      Grows t (places.foldl (fun t place ↦ t.startCycle place) t) := by
    intro places
    induction places with
    | nil => exact .refl
    | cons place rest ih => exact fun t ↦ (grows_startCycle place t).trans (ih _)
  have watch : ∀ (t : State) (w : Watcher) (i : Nat),
      Grows t ({ t with watchers := t.watchers.push w }.enter (.started (.watcher i))) :=
    fun _ _ _ ↦ .enter (.of_eq rfl rfl)
  have listen : Grows s (if s.relay.isNone then
      { s with relay := some { next := s.ensemble.bus.size } }.enter (.started .relay) else s) := by
    split
    · exact .enter (.of_eq rfl rfl)
    · exact .refl s
  unfold beginRun
  exact .trans (listen.trans (.trans (watch _ _ _) (start _ _))) (.of_eq rfl rfl)

theorem grows_abortCycle (i : Nat) (s : State) : Grows s (s.abortCycle i) :=
  .trans (grows_setCycle _ _ _) (grows_enter _ _)

theorem grows_endStopping (run : Shutting) (s : State) : Grows s (s.endStopping run) :=
  .trans (grows_enter _ _) (.trans (grows_publish _ _) (.of_eq rfl rfl))

theorem grows_stopFrom (S : Setup) (run : Shutting) (deadline : Nat) (told : Bool)
    (left : List (Nat × Nat)) (s : State) : Grows s (s.stopFrom S run deadline told left) := by
  induction left generalizing run told s with
  | nil => exact grows_endStopping _ _
  | cons head rest ih =>
    obtain ⟨place, c⟩ := head
    have tell : Grows s (if told then s else s.cancelCycle c) := by
      split
      · exact .refl s
      · exact grows_cancelCycle _ _
    unfold stopFrom
    dsimp only
    generalize (if told then s else s.cancelCycle c) = t at tell ⊢
    refine tell.trans ?_
    split
    · exact ih _ _ _
    · split
      · exact .trans (grows_abortCycle _ _) (ih _ _ _)
      · exact .of_eq rfl rfl

theorem grows_beginStop (S : Setup) (watcher : Nat) (hasRelay : Bool) (s : State) :
    Grows s (s.beginStop S watcher hasRelay) := by
  have ask : Grows s (if s.isRequested then s else (s.request s.unaskedCause).2) := by
    split
    · exact .refl s
    · exact grows_request _ _
  unfold beginStop
  dsimp only
  generalize (if s.isRequested then s else (s.request s.unaskedCause).2) = t at ask ⊢
  have shut : Grows s t.close := ask.trans (.of_eq rfl rfl)
  refine shut.trans ?_
  split
  · exact .enter (.of_eq rfl rfl)
  · exact grows_stopFrom _ _ _ _ _ _

theorem grows_conclude (S : Setup) (run : Shutting) (s : State) : Grows s (s.conclude S run) := by
  unfold conclude
  dsimp only
  split
  · exact .of_eq rfl rfl
  · split
    · exact .of_eq rfl rfl
    · exact .of_eq rfl rfl

theorem grows_closeSession (S : Setup) (ending : SessionEnd) (s : State) :
    Grows s (s.closeSession S ending).2 := by
  unfold closeSession
  split
  · exact .refl s
  · exact .of_eq rfl rfl

theorem grows_endRun (result : RunEnd) (s : State) : Grows s (s.endRun result) :=
  .enter (.of_eq rfl rfl)

theorem grows_stepClosing (S : Setup) (result : RunEnd) (ending : Option SessionEnd) (s : State) :
    Grows s (s.stepClosing S result ending) := by
  cases ending with
  | none => exact grows_endRun _ _
  | some ending => exact .trans (grows_closeSession S ending s) (grows_endRun _ _)

theorem grows_stepHost (S : Setup) (s : State) : Grows s (s.stepHost S) := by
  unfold stepHost
  split
  · exact .refl s
  · exact .refl s
  · exact grows_beginRun _ _
  · split
    · exact grows_beginStop _ _ _ _
    · exact .refl s
  · exact grows_stopFrom _ _ _ _ _ _
  · split
    · split
      · exact .of_eq rfl rfl
      · exact grows_conclude _ _ _
    · exact .refl s
  · split
    · exact grows_conclude _ _ _
    · exact .refl s
  · split
    · exact grows_stepClosing _ _ _ _
    · exact .refl s

/-! ### Steps -/

theorem grows_step (S : Setup) (t : Task) (s : State) : Grows s (s.step S t) := by
  cases t with
  | host => exact grows_stepHost _ _
  | watcher i => exact grows_stepWatcher _ _ _
  | relay => exact grows_stepRelay _ _
  | worker i => exact grows_stepWorker _ _ _
  | cycle i => exact grows_stepCycle _ _ _
  | restart i => exact grows_stepRestart _ _
  | confirmation i => exact grows_stepConfirmation _ _ _
  | writer => exact grows_stepWriter _
  | keeper => exact grows_stepKeeper _ _

theorem grows_undergo (d : Deed) (s : State) : Grows s (s.undergo d) := by
  cases d with
  | request c => exact grows_request _ _
  | signal => exact .of_eq rfl rfl
  | deafen why =>
    obtain ⟨deaf, same⟩ := exists_undergo_deafen why s
    exact same ▸ .of_eq rfl rfl
  | publish e => exact grows_publish _ _
  | mark place m => exact grows_tryMark _ _ _
  | call =>
    unfold undergo
    dsimp only
    split
    · exact .enter (.of_eq rfl rfl)
    · exact .refl s
  | abandon =>
    unfold undergo
    dsimp only
    split
    · exact .refl s
    · exact .of_eq rfl rfl

end State

/-- A step takes nothing back. -/
theorem Step.grows {S : Setup} {admits : Deed → Prop} {s s' : State} (h : Step S admits s s') :
    State.Grows s s' := by
  cases h with
  | turn t _ => exact State.grows_step S t s
  | deed d _ => exact State.grows_undergo d s
  | pass moment _ _ _ => exact .of_eq rfl rfl

/-- Steps one after the other take nothing back. -/
theorem Reaches.grows {S : Setup} {admits : Deed → Prop} {s s' : State}
    (h : Reaches S admits s s') : State.Grows s s' := by
  induction h with
  | refl => exact .refl _
  | step _ last ih => exact ih.trans last.grows

end Supervision
