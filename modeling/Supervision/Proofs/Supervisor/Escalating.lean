import Supervision.Proofs.Supervisor.Ending
import Supervision.Proofs.Supervisor.Failures
import Supervision.Proofs.Supervisor.Scripts

/-!
# Who escalates

Where no hook and nobody outside asks for an escalation, an escalation that begins is a watcher's
(`Step.watcher_of_escalated`): the host asks for the shutdown only for a signal, and all others
leave the shutdown alone.
-/

namespace Supervision

/-! ### Hooks that never escalate -/

/-- The act is no request for an escalation. -/
def Act.IsCalm (a : Act) : Prop := ∀ resource reason, a ≠ .request (.escalated resource reason)

/-- No hook of any cycle of any resource asks for an escalation. -/
def Setup.IsCalm (S : Setup) : Prop := ∀ p, S.ScriptsAt p Act.IsCalm

/-- No hook that a cycle is in has a request for an escalation left. -/
def State.IsCalm (s : State) : Prop :=
  ∀ (i : Nat) (c : Cycle), s.cycles[i]? = some c → c.stage.HasLeft Act.IsCalm

theorem Step.isCalm {S : Setup} {admits : Deed → Prop} {s s' : State} (h : Step S admits s s')
    (calm : S.IsCalm) (ho : s.IsOrderly) (hs : s.IsCalm) : s'.IsCalm :=
  fun i c hc ↦ h.hasLeft (calm c.place) ho (fun j d hd _ ↦ hs j d hd) i c hc rfl

/-! ### Who escalates -/

namespace State

variable {S : Setup} {i : Nat} {c : Cycle} {s t : State}

theorem cause_of_ensemble (h : t.ensemble = s.ensemble) : t.cause = s.cause :=
  congrArg (fun e : Ensemble ↦ e.shutdown.cause) h

theorem not_escalated_of_cause {resource reason : String} (here : s.isRequested = false)
    (same : t.cause = s.cause) : t.cause ≠ some (.escalated resource reason) := by
  intro escalated
  exact Bool.false_ne_true (here.symm.trans (congrArg Option.isSome (same.symm.trans escalated)))

theorem cause_publishAll (es : List Event) (s : State) : (s.publishAll es).cause = s.cause := by
  rw [publishAll_eq]
  rfl

theorem cause_tryMark (place : Nat) (m : Mark) (s : State) :
    (s.tryMark place m).cause = s.cause := by
  unfold tryMark
  split
  · exact (isReserved_mark ‹_›).cause
  · rfl

theorem cause_settle (place : Nat) (exit : Exit) (s : State) :
    (s.settle place exit).cause = s.cause := by
  unfold settle
  split
  · rfl
  · exact cause_tryMark _ _ _

theorem cause_setCycle (i : Nat) (stage : CycleStage) (s : State) :
    (s.setCycle i stage).cause = s.cause :=
  cause_of_ensemble rfl

theorem cause_endCycle (i : Nat) (s : State) : (s.endCycle i).cause = s.cause :=
  cause_of_ensemble (ensemble_endCycle ..)

theorem cause_callHook (S : Setup) (i place : Nat) (hook : Hook) (exit : Exit) (s : State) :
    (s.callHook S i place hook exit).cause = s.cause :=
  cause_of_ensemble (ensemble_callHook ..)

/-- A hook leaves the cause alone, or asks for the shutdown. -/
theorem HookStep.cause_or {place : Nat} {hook : Hook} {acts : List Act} {exit : Exit}
    (h : HookStep S i place hook acts exit s t) : t.cause = s.cause ∨
      ∃ cause, Act.request cause ∈ acts ∧ t.cause = (s.request cause).2.cause := by
  have noted (what : Happening) : (s.enter what).cause = s.cause := cause_of_ensemble rfl
  cases h with
  | rests => exact .inl rfl
  | acts left wake act first fewer =>
    cases act with
    | idle => exact .inl (cause_setCycle ..)
    | mark hm act => exact .inl ((cause_setCycle ..).trans (isReserved_mark hm).cause)
    | note text => exact .inl ((cause_setCycle ..).trans (noted _))
    | @request cause text act =>
      subst act
      exact .inr ⟨cause, first, cause_of_ensemble rfl⟩
  | serves first hm =>
    exact .inl ((cause_callHook ..).trans ((isReserved_mark hm).cause.trans (noted _)))
  | stops result before more => exact .inl ((cause_callHook ..).trans (noted _))
  | settles result last =>
    exact .inl ((cause_endCycle ..).trans ((cause_settle ..).trans (noted _)))

/-- A cycle leaves the cause alone, or a hook of it asks for the shutdown. -/
theorem CycleStep.cause_or (h : CycleStep S i c s t) : t.cause = s.cause ∨
    ∃ hook acts wake exit cause, c.stage = .inside hook acts wake exit ∧
      Act.request cause ∈ acts ∧ t.cause = (s.request cause).2.cause := by
  have noted (seen : List Nat) : (s.noteSeen i seen).cause = s.cause :=
    cause_of_ensemble (ensemble_noteSeen ..)
  cases h with
  | rests => exact .inl rfl
  | turnsAway => exact .inl (cause_endCycle ..)
  | begins fresh hm => exact .inl ((cause_setCycle ..).trans (isReserved_mark hm).cause)
  | obeys => exact .inl ((cause_endCycle ..).trans (cause_tryMark ..))
  | breaks | flinches => exact .inl (cause_of_ensemble rfl)
  | waits => exact .inl ((cause_setCycle ..).trans (noted _))
  | starts => exact .inl ((cause_callHook ..).trans (noted _))
  | meets | fails =>
    exact .inl ((cause_endCycle ..).trans ((cause_tryMark ..).trans (noted _)))
  | hooks inside step =>
    rcases step.cause_or with kept | ⟨cause, listed, asks⟩
    · exact .inl kept
    · exact .inr ⟨_, _, _, _, cause, inside, listed, asks⟩

/-- A calm cycle never escalates. -/
theorem CycleStep.not_escalates (h : CycleStep S i c s t) (calm : c.stage.HasLeft Act.IsCalm)
    (here : s.isRequested = false) (resource reason : String) :
    t.cause ≠ some (.escalated resource reason) := by
  intro escalated
  rcases h.cause_or with kept | ⟨hook, acts, wake, exit, cause, inside, listed, asks⟩
  · exact not_escalated_of_cause here kept escalated
  · rw [cause_request_of_unasked cause here] at asks
    cases asks.symm.trans escalated
    rw [inside] at calm
    exact calm _ listed resource reason rfl

theorem cause_stopFrom (run : Shutting) (deadline : Nat) (told : Bool) (left : List (Nat × Nat))
    (s : State) : (s.stopFrom S run deadline told left).cause = s.cause := by
  have ends : Ends run deadline s (s.stopFrom S run deadline told left) :=
    stopFrom_ends run deadline told left s
  generalize s.stopFrom S run deadline told left = t at ends
  cases ends with
  | waits final later early host cause report now same => exact same
  | ends final host cause report now same => exact same

theorem cause_beginStop (watcher : Nat) (hasRelay : Bool) (s : State) :
    (s.beginStop S watcher hasRelay).cause = s.hear.cause := by
  cases far : S.settings.grace.isBeyondClocks with
  | true =>
    rw [beginStop_of_far far]
    exact cause_of_ensemble rfl
  | false =>
    rw [beginStop_of_near far, cause_stopFrom]
    exact cause_of_ensemble rfl

/-- The host asks for the shutdown only over signals. -/
theorem cause_stepHost (S : Setup) (s : State) : (s.stepHost S).cause = s.cause ∨
    s.isRequested = false ∧ (s.stepHost S).cause = some s.unaskedCause := by
  have concluded (run : Shutting) : (s.conclude S run).cause = s.cause := by
    unfold conclude
    dsimp only
    split
    · exact cause_of_ensemble rfl
    · split <;> exact cause_of_ensemble rfl
  unfold stepHost
  split
  case h_1 | h_2 => exact .inl rfl
  case h_3 => exact .inl (cause_of_ensemble (beginRun_eq S s).1)
  case h_4 watcher hasRelay _ =>
    split
    · rw [cause_beginStop]
      cases here : s.isRequested with
      | true =>
        rw [hear_of_requested here]
        exact .inl rfl
      | false =>
        rw [hear_of_unasked here]
        exact .inr ⟨rfl, cause_request_of_unasked _ here⟩
    · exact .inl rfl
  case h_5 => exact .inl (cause_stopFrom _ _ _ _ _)
  case h_6 =>
    split
    · split
      · exact .inl (cause_of_ensemble rfl)
      · exact .inl (concluded _)
    · exact .inl rfl
  case h_7 =>
    split
    · exact .inl (concluded _)
    · exact .inl rfl
  case h_8 result ending _ =>
    split
    · refine .inl ?_
      unfold stepClosing closeSession
      cases ending with
      | none => exact cause_of_ensemble rfl
      | some ending =>
        cases s.recorder with
        | none => exact cause_of_ensemble rfl
        | some r => exact cause_of_ensemble rfl
    · exact .inl rfl

theorem cause_stepRestart (i : Nat) (s : State) : (s.stepRestart i).cause = s.cause := by
  have released (place : Nat) : (s.release i place).cause = s.cause := by
    rw [release_frame]
    rfl
  have respawned (place : Nat) : (s.respawn i place).cause = s.cause := by
    rw [respawn_frame]
    rfl
  unfold stepRestart
  split
  · rfl
  · split
    · split
      · exact released _
      · exact cause_of_ensemble rfl
    · split
      · exact released _
      · rfl
    · split
      · exact respawned _
      · rfl
    · rfl

theorem cause_confirmIn (i place : Nat) (before : Wait) (s : State) :
    (s.confirmIn S i place before).cause = s.cause := by
  unfold confirmIn
  dsimp only
  split
  · exact cause_of_ensemble rfl
  · refine (cause_of_ensemble rfl : _ = State.cause (confirm S place _)).trans ?_
    rw [confirm_frame]
    rfl
  · exact cause_of_ensemble rfl

/-- **Nobody but watchers and cycles escalates.** -/
theorem not_escalates_step (t : Task) (watchers : ∀ i, t ≠ .watcher i) (cycles : ∀ i, t ≠ .cycle i)
    (here : s.isRequested = false) (resource reason : String) :
    (s.step S t).cause ≠ some (.escalated resource reason) := by
  have kept {u : State} (same : u.cause = s.cause) : u.cause ≠ some (.escalated resource reason) :=
    not_escalated_of_cause here same
  cases t with
  | host =>
    show (s.stepHost S).cause ≠ _
    rcases cause_stepHost S s with same | ⟨-, signal⟩
    · exact kept same
    · rw [signal]
      exact fun same ↦ unaskedCause_ne_escalated s _ _ (Option.some.inj same)
  | watcher i => exact absurd rfl (watchers i)
  | relay =>
    refine kept ?_
    show (s.stepRelay S).cause = _
    unfold stepRelay
    split
    · rfl
    · split
      · split
        · exact (cause_publishAll _ _).trans (cause_of_ensemble rfl)
        · exact cause_of_ensemble rfl
        · split
          · exact cause_of_ensemble rfl
          · rfl
      · split
        · exact cause_of_ensemble rfl
        · rfl
      · rfl
  | worker i =>
    refine kept ?_
    have said : ({ s with fanout := (s.fanout.step S.subscribers s.now i).1 }.publishAll
        (s.fanout.step S.subscribers s.now i).2).cause = s.cause :=
      (cause_publishAll _ _).trans (cause_of_ensemble rfl)
    show (s.stepWorker S i).cause = _
    unfold stepWorker
    dsimp only
    split
    · split
      · exact (cause_of_ensemble rfl).trans said
      · exact said
    · exact said
  | cycle i => exact absurd rfl (cycles i)
  | restart i => exact kept (cause_stepRestart i s)
  | confirmation i =>
    refine kept ?_
    show (s.stepConfirmation S i).cause = _
    unfold stepConfirmation
    split
    · rfl
    · split
      · exact cause_confirmIn _ _ _ _
      · exact cause_confirmIn _ _ _ _
      · rfl
  | writer | keeper => exact kept (cause_of_ensemble rfl)

end State

/-- Nobody outside asks for an escalation. -/
def Deed.IsCalm (admits : Deed → Prop) : Prop :=
  ∀ resource reason, ¬ admits (.request (.escalated resource reason))

theorem State.not_escalates_undergo {admits : Deed → Prop} {s : State} {d : Deed} (hd : admits d)
    (calm : Deed.IsCalm admits) (here : s.isRequested = false) (resource reason : String) :
    (s.undergo d).cause ≠ some (.escalated resource reason) := by
  have kept {u : State} (same : u.cause = s.cause) : u.cause ≠ some (.escalated resource reason) :=
    not_escalated_of_cause here same
  cases d with
  | request c =>
    show (s.request c).2.cause ≠ _
    rw [cause_request_of_unasked c here]
    intro same
    cases same
    exact calm resource reason hd
  | signal => exact kept (cause_of_ensemble rfl)
  | publish e => exact kept (cause_publishAll [e] s)
  | mark place m => exact kept (cause_tryMark place m s)
  | deafen why | call | abandon =>
    refine kept ?_
    unfold undergo
    dsimp only
    split
    · exact cause_of_ensemble rfl
    · exact cause_of_ensemble rfl

/-- **Where nobody else asks for one, an escalation is a watcher's.** -/
theorem Step.watcher_of_escalated {S : Setup} {admits : Deed → Prop} {s s' : State}
    (h : Step S admits s s') (deeds : Deed.IsCalm admits) (calm : s.IsCalm)
    (here : s.isRequested = false) {resource reason : String}
    (escalated : s'.cause = some (.escalated resource reason)) : ∃ i, s' = s.stepWatcher S i := by
  cases h with
  | turn t ready =>
    by_cases watcher : ∃ i, t = .watcher i
    · obtain ⟨i, rfl⟩ := watcher
      exact ⟨i, rfl⟩
    · by_cases cycle : ∃ i, t = .cycle i
      · obtain ⟨i, rfl⟩ := cycle
        cases hc : s.cycles[i]? with
        | none =>
          rw [State.step_cycle_of_none hc] at escalated
          exact absurd escalated (State.not_escalated_of_cause here rfl)
        | some c =>
          have step : State.CycleStep S i c s (s.step S (.cycle i)) := State.cycleStep_step hc
          exact absurd escalated (step.not_escalates (calm i c hc) here _ _)
      · exact absurd escalated (State.not_escalates_step t (fun i e ↦ watcher ⟨i, e⟩)
          (fun i e ↦ cycle ⟨i, e⟩) here _ _)
  | deed d hd => exact absurd escalated (State.not_escalates_undergo hd deeds here _ _)
  | pass moment later idle timers =>
    exact absurd escalated (State.not_escalated_of_cause here rfl)

end Supervision
