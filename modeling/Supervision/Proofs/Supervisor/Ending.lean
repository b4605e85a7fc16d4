import Supervision.Proofs.Supervisor.Admission
import Supervision.Proofs.Supervisor.Stopping

/-!
# How a run ends

A run that nobody gives up says once how its stop ended, and nobody else says so. Until it does, it
has not left its stop (`HostStage.IsAt`), and it cannot stay there for long: it goes on as soon as
the shutdown has begun, its stop is under a deadline, and time passes only when nobody can go on
(`State.IsPrompt`). What comes of the run is an escalation exactly when the shutdown began with one,
since it works from the cause that it found when its stop began, and that one stays.

* `Step.isAt` — every step keeps the count of what was said.
* `Step.isPrompt` — once the shutdown has begun, the stop ends within its grace.
* `shutdown_silences` — requests, cause, events and ends of runs, over whole runs.

All of that is said of events which nobody else publishes in the name of the supervisor, and of
steps in the middle of which nobody is held up (`restart_after_shutdown`).
-/

namespace Supervision

/-! ### Where a run stands -/

/-- The run works from this cause, and took note of who was not ready if that is an escalation. -/
structure Shutting.IsFor (run : Shutting) (cause : Option Cause) : Prop where
  same : run.cause = cause
  begun : cause.isSome = true
  report : ∀ resource reason, cause = some (.escalated resource reason) →
    run.report.isSome = true

/-- The result is an escalation exactly when the cause is one, and then tells it. -/
def RunEnd.IsFor (result : RunEnd) (cause : Option Cause) : Prop :=
  ∀ trigger, (∃ failures, result = .error (.escalated trigger failures)) ↔
    ∃ resource reason, cause = some (.escalated resource reason) ∧
      trigger = resource ++ ": " ++ reason

/-- Where a run stands that works from a cause and has said so many times how its stop ended. -/
inductive HostStage.IsAt (cause : Option Cause) : Nat → HostStage → Prop where
  | fresh : IsAt cause 0 .fresh
  | serving (watcher : Nat) (hasRelay : Bool) : IsAt cause 0 (.serving watcher hasRelay)
  | stopping {run : Shutting} (deadline : Nat) (left : List (Nat × Nat)) (h : run.IsFor cause) :
      IsAt cause 0 (.stopping run deadline left)
  | joiningWatcher {run : Shutting} (h : run.IsFor cause) : IsAt cause 1 (.joiningWatcher run)
  | joiningRelay {run : Shutting} (h : run.IsFor cause) : IsAt cause 1 (.joiningRelay run)
  | closing {result : RunEnd} (ending : Option SessionEnd) (begun : cause.isSome = true)
      (h : result.IsFor cause) : IsAt cause 1 (.closing result ending)
  | finished {result : RunEnd} (begun : cause.isSome = true) (h : result.IsFor cause) :
      IsAt cause 1 (.finished result)

/-- The stop of a run has not begun. -/
def HostStage.isBeforeStop : HostStage → Bool
  | .fresh | .serving _ _ => true
  | _ => false

/-- The stop of a run is not over. -/
def HostStage.isBeforeEnd : HostStage → Bool
  | .fresh | .serving _ _ | .stopping _ _ _ => true
  | _ => false

/-- Without an escalation the result is none. -/
theorem State.calmResult_ne_escalated (S : Setup) (run : Shutting) (trigger : String)
    (failures : List Unready) : State.calmResult S run ≠ .error (.escalated trigger failures) := by
  unfold State.calmResult
  split
  · cases run.deaf <;> nofun
  · nofun

theorem Shutting.IsFor.result {S : Setup} {run : Shutting} {cause : Option Cause}
    (h : run.IsFor cause) : (State.result S run).IsFor cause := by
  obtain ⟨rfl, begun, report⟩ := h
  intro trigger
  obtain ⟨c, hc⟩ := Option.isSome_iff_exists.1 begun
  have other : (∀ resource reason, c ≠ .escalated resource reason) →
      State.result S run = State.calmResult S run := by
    intro ne
    unfold State.result
    rw [hc]
    cases c with
    | escalated resource reason => exact absurd rfl (ne resource reason)
    | _ => rfl
  have none : (∀ resource reason, c ≠ .escalated resource reason) →
      ((∃ failures, State.result S run = .error (.escalated trigger failures)) ↔
        ∃ resource reason, run.cause = some (.escalated resource reason) ∧
          trigger = resource ++ ": " ++ reason) := by
    intro ne
    rw [other ne, hc]
    constructor
    · rintro ⟨failures, he⟩
      exact absurd he (State.calmResult_ne_escalated S run trigger failures)
    · rintro ⟨resource, reason, he, -⟩
      exact absurd (Option.some.inj he) (ne resource reason)
  cases c with
  | escalated resource reason =>
    obtain ⟨failures, hf⟩ := Option.isSome_iff_exists.1 (report resource reason hc)
    have ends : State.result S run
        = .error (.escalated (resource ++ ": " ++ reason) failures) := by
      unfold State.result
      rw [hc, hf]
    rw [ends, hc]
    constructor
    · rintro ⟨_, he⟩
      cases he
      exact ⟨resource, reason, rfl, rfl⟩
    · rintro ⟨_, _, he, rfl⟩
      cases he
      exact ⟨failures, rfl⟩
  | signal => exact none nofun
  | requested reason => exact none nofun

/-- A session that could not be closed makes no escalation of a run that ended well. -/
theorem RunEnd.IsFor.withStoreError {result : RunEnd} {cause : Option Cause}
    (h : result.IsFor cause) (e : StoreError) : (State.withStoreError result e).IsFor cause := by
  cases result with
  | ok =>
    intro trigger
    rw [← h trigger]
    constructor
    · rintro ⟨_, he⟩
      cases he
    · rintro ⟨_, he⟩
      cases he
  | error e' => exact h
  | panicked message => exact h

namespace HostStage.IsAt

variable {cause cause' : Option Cause} {n : Nat} {stage : HostStage}

theorem congr (h : stage.IsAt cause n) (stays : ∀ c, cause = some c → cause' = some c) :
    stage.IsAt cause' n := by
  have same : cause.isSome = true → cause' = cause := by
    intro begun
    obtain ⟨c, hc⟩ := Option.isSome_iff_exists.1 begun
    rw [hc]
    exact stays c hc
  cases h with
  | fresh => exact .fresh
  | serving watcher hasRelay => exact .serving _ _
  | stopping deadline left h => exact .stopping _ _ (same h.begun ▸ h)
  | joiningWatcher h => exact .joiningWatcher (same h.begun ▸ h)
  | joiningRelay h => exact .joiningRelay (same h.begun ▸ h)
  | closing ending begun h => exact .closing _ (same begun ▸ begun) (same begun ▸ h)
  | finished begun h => exact .finished (same begun ▸ begun) (same begun ▸ h)

theorem eq_zero_iff (h : stage.IsAt cause n) : n = 0 ↔ stage.isBeforeEnd = true := by
  cases h <;> simp [isBeforeEnd]

theorem le_one (h : stage.IsAt cause n) : n ≤ 1 := by
  cases h <;> omega

/-- Before the shutdown has begun, no stop has ended. -/
theorem eq_zero_of_unasked (h : stage.IsAt none n) : n = 0 := by
  cases h with
  | fresh => rfl
  | serving watcher hasRelay => rfl
  | stopping deadline left h => rfl
  | joiningWatcher h => exact absurd h.begun (by nofun)
  | joiningRelay h => exact absurd h.begun (by nofun)
  | closing ending begun h => exact absurd begun (by nofun)
  | finished begun h => exact absurd begun (by nofun)

end HostStage.IsAt

/-! ### What the host says -/

theorem EventKind.endsStop_of_isSaidBy {k : EventKind} {who : Option Task}
    (may : k.IsSaidBy who) (other : who ≠ some .host) : k.endsStop = false := by
  cases k with
  | allStoppedWithin => exact absurd may other
  | graceExceeded => exact absurd may other
  | _ => rfl

namespace State

variable {S : Setup} {s t : State} {n : Nat}

/-- How many times it was told how a stop ended. -/
def endings (s : State) : Nat := s.events.countP (·.kind.endsStop)

theorem endings_of_events (h : t.events = s.events) : t.endings = s.endings := by
  unfold endings
  rw [h]

theorem endings_of_silent (h : Says (fun e ↦ e.kind.endsStop = false) s t) :
    t.endings = s.endings := by
  obtain ⟨more, events, none⟩ := h
  have zero : more.countP (·.kind.endsStop) = 0 := by
    refine List.countP_eq_zero.2 fun e he ↦ ?_
    rw [none e he]
    exact Bool.false_ne_true
  unfold endings
  rw [events, List.countP_append, zero]
  rfl

theorem endings_publish {e : Event} (ends : e.kind.endsStop = true) :
    (s.publish e).endings = s.endings + 1 := by
  unfold endings
  rw [events_publish, List.countP_append]
  simp [ends]

/-- Only the host says how a stop ended. -/
theorem Enters.endings {who : Option Task} (h : Enters (s.IsEntryOf who) s t)
    (other : who ≠ some .host) : t.endings = s.endings := by
  refine endings_of_silent (Enters.published (h.mono fun x hx e he ↦ ?_))
  have may : (Happening.published e).IsBy who := he ▸ hx.2
  exact EventKind.endsStop_of_isSaidBy may other

theorem events_beginRun (S : Setup) (s : State) : (s.beginRun S).events = s.events := by
  have cycles : ∀ (places : List Nat) (t : State),
      (places.foldl (fun s place ↦ s.startCycle place) t).events = t.events := by
    intro places
    induction places with
    | nil => exact fun _ ↦ rfl
    | cons place rest ih =>
      exact fun t ↦ (ih (t.startCycle place)).trans (events_enter_of_quiet rfl)
  have started : ∀ (t : State) (k : Task), (t.enter (.started k)).events = t.events :=
    fun t k ↦ events_enter_of_quiet rfl
  unfold beginRun
  dsimp only
  refine (events_of_chronicle rfl).trans ((cycles _ _).trans ((started _ _).trans ?_))
  split
  · exact (events_of_chronicle rfl).trans (started _ _)
  · exact events_of_chronicle rfl

/-- What becomes of a stop that stands in `run` under a deadline: it waits for another cycle, or it
says how it ended. -/
inductive Ends (run : Shutting) (deadline : Nat) (s : State) : State → Prop where
  | waits {t : State} (final : Shutting) (later : List (Nat × Nat)) (early : s.now < deadline)
      (host : t.host = .stopping final deadline later) (cause : final.cause = run.cause)
      (report : final.report = run.report) (now : t.now = s.now) (same : t.cause = s.cause)
      (unsaid : t.endings = s.endings) : Ends run deadline s t
  | ends {t : State} (final : Shutting) (host : t.host = .joiningWatcher final)
      (cause : final.cause = run.cause) (report : final.report = run.report) (now : t.now = s.now)
      (same : t.cause = s.cause) (said : t.endings = s.endings + 1) : Ends run deadline s t

theorem Ends.congr {run run' : Shutting} {deadline : Nat} {u : State} (h : Ends run deadline t u)
    (cause : run.cause = run'.cause) (report : run.report = run'.report) (now : t.now = s.now)
    (same : t.cause = s.cause) (unsaid : t.endings = s.endings) : Ends run' deadline s u := by
  cases h with
  | waits final later early host cause' report' now' same' unsaid' =>
    exact .waits final later (now ▸ early) host (cause'.trans cause) (report'.trans report)
      (now'.trans now) (same'.trans same) (unsaid'.trans unsaid)
  | ends final host cause' report' now' same' said =>
    exact .ends final host (cause'.trans cause) (report'.trans report) (now'.trans now)
      (same'.trans same) (unsaid ▸ said)

theorem stopFrom_ends (run : Shutting) (deadline : Nat) (told : Bool) (left : List (Nat × Nat))
    (s : State) : Ends run deadline s (s.stopFrom S run deadline told left) := by
  have step := stopStep_stopFrom S run deadline told left s
  generalize s.stopFrom S run deadline told left = t at step ⊢
  induction step with
  | ends run _ s =>
    have entered : (s.enter (.stopped run.stuck)).endings = s.endings :=
      endings_of_events (events_enter_of_quiet rfl)
    refine .ends run rfl rfl rfl rfl rfl ?_
    rw [← entered]
    show (publish _ _).endings = _
    refine endings_publish ?_
    split <;> rfl
  | tells _ ih => exact ih.congr rfl rfl rfl rfl (endings_of_events (events_enter_of_quiet rfl))
  | skips _ _ ih => exact ih
  | aborts _ _ _ ih =>
    exact ih.congr rfl rfl rfl rfl (endings_of_events (events_enter_of_quiet rfl))
  | waits _ early => exact .waits _ _ early rfl rfl rfl rfl rfl rfl

/-- A run began when so many endings had been told, and stands where it must. -/
def IsAt (b : Nat) (s : State) : Prop :=
  ∃ n, s.endings = b + n ∧ s.host.IsAt s.cause n

/-- A stop that goes on from where it must stand stands where it must. -/
theorem Ends.isAt {run : Shutting} {deadline b : Nat} (h : Ends run deadline s t)
    (hr : run.IsFor s.cause) (unsaid : s.endings = b) : t.IsAt b := by
  have still : ∀ {final : Shutting}, final.cause = run.cause → final.report = run.report →
      t.cause = s.cause → final.IsFor t.cause := by
    intro final cause report same
    rw [same]
    exact ⟨cause.trans hr.same, hr.begun, report ▸ hr.report⟩
  cases h with
  | waits final later early host cause report now same kept =>
    refine ⟨0, kept.trans unsaid, ?_⟩
    rw [host]
    exact .stopping _ _ (still cause report same)
  | ends final host cause report now same said =>
    refine ⟨1, by rw [said, unsaid], ?_⟩
    rw [host]
    exact .joiningWatcher (still cause report same)

/-- A stop begins with the cause of the shutdown, and is under a deadline from then on. -/
theorem beginStop_ends (watcher : Nat) (hasRelay : Bool)
    (near : S.settings.grace.isBeyondClocks = false) :
    ∃ run t, t.now = s.now ∧ run.IsFor t.cause ∧ t.endings = s.endings ∧
      Ends run (s.now + S.settings.grace.millisUp) t (s.beginStop S watcher hasRelay) := by
  have now : s.hear.now = s.now := by rw [hear_frame]
  have unsaid : s.hear.endings = s.endings := by
    unfold hear
    split
    · rfl
    · exact (enters_request _ s : Enters (s.IsEntryOf none) _ _).endings nofun
  have isFor : (s.hear.opening watcher hasRelay s.heardDeaf).IsFor s.hear.close.cause := by
    refine ⟨rfl, isRequested_hear s, fun resource reason hc ↦ ?_⟩
    have cause : s.hear.ensemble.shutdown.cause = some (.escalated resource reason) := hc
    unfold opening
    rw [cause]
    rfl
  rw [beginStop_of_near near]
  exact ⟨_, s.hear.close, now, isFor, (endings_of_events (events_of_chronicle rfl)).trans unsaid,
    stopFrom_ends _ _ _ _ _⟩

theorem isAt_conclude {b : Nat} {run : Shutting} (isFor : run.IsFor s.cause)
    (said : s.endings = b + 1) : (s.conclude S run).IsAt b := by
  unfold conclude
  dsimp only
  split
  · exact ⟨1, said, .closing _ isFor.begun isFor.result⟩
  · split
    · exact ⟨1, said, .closing _ isFor.begun isFor.result⟩
    · exact ⟨1, said, .closing _ isFor.begun isFor.result⟩

theorem isAt_stepClosing {b : Nat} {result : RunEnd} {ending : Option SessionEnd}
    (begun : s.cause.isSome = true) (isFor : result.IsFor s.cause) (said : s.endings = b + 1) :
    (s.stepClosing S result ending).IsAt b := by
  have isOver : ∀ {t : State} {result : RunEnd}, t.cause = s.cause → t.events = s.events →
      result.IsFor s.cause → (t.endRun result).IsAt b := by
    intro t result cause events isFor
    refine ⟨1, (endings_of_events ?_).trans said, .finished (cause ▸ begun) (cause ▸ isFor)⟩
    exact (events_enter_of_quiet rfl).trans ((events_of_chronicle rfl).trans events)
  cases ending with
  | none => exact isOver rfl rfl isFor
  | some ending =>
    unfold stepClosing closeSession
    dsimp only
    cases s.recorder with
    | none => exact isOver rfl rfl isFor
    | some r =>
      dsimp only
      cases (r.closeSession ending (S.calendar s.now)).1 with
      | ok u => exact isOver rfl rfl isFor
      | error e => exact isOver rfl rfl (isFor.withStoreError e)

/-- **A step of the host keeps the count of what was said.** -/
theorem isAt_stepHost {b : Nat} (near : S.settings.grace.isBeyondClocks = false)
    (h : s.IsAt b) : (s.stepHost S).IsAt b := by
  obtain ⟨n, said, at_⟩ := h
  have unmoved : s.IsAt b := ⟨n, said, at_⟩
  unfold stepHost
  split
  · exact unmoved
  · exact unmoved
  · rename_i fresh
    rw [fresh] at at_
    cases at_
    exact ⟨0, (endings_of_events (events_beginRun S s)).trans said, .serving _ _⟩
  · rename_i serving
    split
    · rw [serving] at at_
      cases at_
      obtain ⟨run, t, -, isFor, unsaid, ends⟩ := beginStop_ends (s := s) _ _ near
      exact ends.isAt isFor (unsaid.trans said)
    · exact unmoved
  · rename_i run deadline left stopping
    rw [stopping] at at_
    cases at_ with
    | stopping deadline left isFor => exact (stopFrom_ends run deadline true left s).isAt isFor said
  · rename_i run joining
    rw [joining] at at_
    cases at_ with
    | joiningWatcher isFor =>
      split
      · split
        · exact ⟨1, said, .joiningRelay isFor⟩
        · exact isAt_conclude isFor said
      · exact unmoved
  · rename_i run joining
    rw [joining] at at_
    cases at_ with
    | joiningRelay isFor =>
      split
      · exact isAt_conclude isFor said
      · exact unmoved
  · rename_i result ending closing
    rw [closing] at at_
    cases at_ with
    | closing ending begun isFor =>
      split
      · exact isAt_stepClosing begun isFor said
      · exact unmoved

/-! ### Where a step of the host leads -/

/-- Only a run whose stop has not begun stands there after its step. -/
theorem isBeforeStop_of_stepHost (h : (s.stepHost S).host.isBeforeStop = true) :
    s.host.isBeforeStop = true := by
  by_cases after : s.host.isAfterStop = true
  · have isOver : (s.stepHost S).host.isAfterStop = true := isAfterStop_stepHost after
    cases host : (s.stepHost S).host <;> rw [host] at h isOver <;>
      simp [HostStage.isBeforeStop, HostStage.isAfterStop] at h isOver
  · cases host : s.host with
    | stopping run deadline left =>
      rw [stepHost_of_stopping host] at h
      cases (stopFrom_ends run deadline true left s : Ends _ _ _ (s.stopFrom S _ _ _ _)) with
      | waits final later early host' => rw [host'] at h; cases h
      | ends final host' => rw [host'] at h; cases h
    | fresh => rfl
    | serving watcher hasRelay => rfl
    | _ => exact absurd (by rw [host]; rfl) after

/-- A stop that goes on is early, under a deadline that was set now or before. -/
theorem stopping_stepHost (near : S.settings.grace.isBeyondClocks = false) {run : Shutting}
    {deadline : Nat} {left : List (Nat × Nat)}
    (h : (s.stepHost S).host = .stopping run deadline left) :
    s.now ≤ deadline ∧
      ((s.host.isBeforeStop = true ∧ deadline = s.now + S.settings.grace.millisUp) ∨
        ∃ run' left', s.host = .stopping run' deadline left') := by
  by_cases after : s.host.isAfterStop = true
  · have isOver : (s.stepHost S).host.isAfterStop = true := isAfterStop_stepHost after
    rw [h] at isOver
    cases isOver
  · cases host : s.host with
    | fresh =>
      unfold stepHost at h
      rw [host] at h
      cases h
    | serving watcher hasRelay =>
      by_cases due : s.isRequested = true ∨ s.signalled = true
      · rw [stepHost_of_serving host due] at h
        obtain ⟨run', t, now, -, -, ends⟩ := beginStop_ends (s := s) watcher hasRelay near
        generalize s.beginStop S watcher hasRelay = u at h ends
        cases ends with
        | waits final later early host' =>
          rw [host'] at h
          cases h
          exact ⟨Nat.le_add_right _ _, .inl ⟨rfl, rfl⟩⟩
        | ends final host' => rw [host'] at h; cases h
      · unfold stepHost at h
        rw [host] at h
        dsimp only at h
        rw [if_neg (by simpa using due), host] at h
        cases h
    | stopping run' deadline' left' =>
      rw [stepHost_of_stopping host] at h
      have ends : Ends run' deadline' s (s.stopFrom S run' deadline' true left') :=
        stopFrom_ends run' deadline' true left' s
      generalize s.stopFrom S run' deadline' true left' = u at h ends
      cases ends with
      | waits final later early host' =>
        rw [host'] at h
        cases h
        exact ⟨Nat.le_of_lt early, .inr ⟨run', left', rfl⟩⟩
      | ends final host' => rw [host'] at h; cases h
    | _ => exact absurd (by rw [host]; rfl) after

/-! ### How long a stop takes -/

/-- A stop that goes on is before its deadline, which is not further away than its grace. -/
def IsTimely (S : Setup) (s : State) : Prop :=
  ∀ run deadline left, s.host = .stopping run deadline left →
    s.now ≤ deadline ∧ deadline ≤ s.now + S.settings.grace.millisUp

/-- The shutdown has begun, and since the moment `m` no time has passed before the stop begins; if
it goes on, it is before a deadline that is not further from `m` than its grace. -/
structure IsPrompt (S : Setup) (m : Nat) (s : State) : Prop where
  requested : s.isRequested = true
  waiting : s.host.isBeforeStop = true → s.now = m
  stopping : ∀ run deadline left, s.host = .stopping run deadline left →
    s.now ≤ deadline ∧ deadline ≤ m + S.settings.grace.millisUp

end State

section Run

variable {S : Setup} {admits : Deed → Prop} {who : Option Task} {s s' : State} {b : Nat}

/-- Nobody but the host moves a run on that is neither asked for again nor given up. -/
theorem Change.host_of_other (alone : ¬ admits .call) (kept : ¬ admits .abandon)
    (other : who ≠ some .host) (h : Change S admits who s s') : s'.host = s.host := by
  rcases h.host with e | ⟨host, -⟩ | ⟨-, ⟨given, -⟩ | ⟨called, -⟩⟩
  · exact e
  · exact absurd host other
  · exact absurd given kept
  · exact absurd called alone

theorem Changes.host_of_other (alone : ¬ admits .call) (kept : ¬ admits .abandon)
    (other : who ≠ some .host) (h : Changes S admits who s s') : s'.host = s.host := by
  induction h with
  | refl => rfl
  | tail _ last ih => exact (last.host_of_other alone kept other).trans ih

/-- What a step is for a run: one of the host, or it leaves the host where it is, and time passes
only while the host waits. -/
theorem Step.host_cases (alone : ¬ admits .call) (kept : ¬ admits .abandon)
    (h : Step S admits s s') (ho : s.IsOrderly) :
    (s' = s.stepHost S ∧ s'.now = s.now) ∨ (s'.host = s.host ∧ s'.now = s.now) ∨
      ∃ moment, s' = s.passTo moment ∧ s.now < moment ∧ s.hostIsEnabled = false ∧
        ∀ m, s.hostTimer? = some m → moment ≤ m := by
  cases h with
  | turn t ready =>
    have hc : Changes S admits (some t) s (s.step S t) := State.changes_step t s ho
    by_cases host : t = .host
    · subst host
      exact .inl ⟨rfl, hc.now⟩
    · have other : some t ≠ some .host := fun e ↦ host (Option.some.inj e)
      exact .inr (.inl ⟨hc.host_of_other alone kept other, hc.now⟩)
  | deed d hd =>
    have hc : Changes S admits none s (s.undergo d) := State.changes_undergo d s hd
    have other : none ≠ some Task.host := nofun
    exact .inr (.inl ⟨hc.host_of_other alone kept other, State.now_undergo d s⟩)
  | pass moment later idle timers =>
    exact .inr (.inr ⟨moment, rfl, later, idle .host, timers .host⟩)

/-- **Every step keeps the count of what was said.** -/
theorem Step.isAt (near : S.settings.grace.isBeyondClocks = false)
    (honest : ∀ e, admits (.publish e) → e.kind.isOwn = false) (alone : ¬ admits .call)
    (kept : ¬ admits .abandon) (h : Step S admits s s') (ho : s.IsOrderly) (hs : s.IsAt b) :
    s'.IsAt b := by
  rcases h.turn_or_changes ho (· = .host) with ⟨_, rfl, rfl⟩ | ⟨who, other, hc⟩
  · exact State.isAt_stepHost near hs
  · refine (hc.keeps (P := State.IsAt b) (fun _ ⟨n, said, stands⟩ change ↦ ?_) ho hs).2
    have host := change.host_of_other alone kept (other _ rfl)
    have unsaid := (change.enters honest).endings (other _ rfl)
    exact ⟨n, unsaid.trans said, host ▸ stands.congr fun c hc ↦ change.cause hc⟩

/-- Time passes in a stop that goes on up to its deadline at most. -/
theorem State.le_deadline_of_pass {run : Shutting} {deadline moment : Nat}
    {left : List (Nat × Nat)} (host : s.host = .stopping run deadline left)
    (waits : s.hostIsEnabled = false) (timers : ∀ m, s.hostTimer? = some m → moment ≤ m) :
    moment ≤ deadline := by
  cases left with
  | nil =>
    unfold State.hostIsEnabled at waits
    rw [host] at waits
    cases waits
  | cons head rest =>
    refine timers deadline ?_
    unfold State.hostTimer?
    rw [host]

theorem Step.isTimely (near : S.settings.grace.isBeyondClocks = false) (alone : ¬ admits .call)
    (kept : ¬ admits .abandon) (h : Step S admits s s') (ho : s.IsOrderly) (hs : s.IsTimely S) :
    s'.IsTimely S := by
  intro run deadline left host
  rcases h.host_cases alone kept ho with ⟨rfl, now⟩ | ⟨same, now⟩ |
    ⟨moment, rfl, later, waits, timers⟩
  · obtain ⟨early, ⟨-, rfl⟩ | ⟨run', left', before⟩⟩ := State.stopping_stepHost near host
    · exact ⟨now.symm ▸ early, Nat.le_of_eq (by rw [now])⟩
    · rw [now]
      exact hs _ _ _ before
  · rw [now]
    exact hs _ _ _ (same ▸ host)
  · have host : s.host = .stopping run deadline left := host
    obtain ⟨-, near⟩ := hs run deadline left host
    exact ⟨State.le_deadline_of_pass host waits timers,
      Nat.le_trans near (Nat.add_le_add_right (Nat.le_of_lt later) _)⟩

/-- **Once the shutdown has begun, a stop ends within its grace.** -/
theorem Step.isPrompt {m : Nat} (near : S.settings.grace.isBeyondClocks = false)
    (alone : ¬ admits .call) (kept : ¬ admits .abandon) (h : Step S admits s s')
    (ho : s.IsOrderly) (hs : s.IsPrompt S m) : s'.IsPrompt S m where
  requested := by
    obtain ⟨who, hc⟩ := h.changes ho
    exact (hc.keeps (P := fun t ↦ t.isRequested = true) (fun _ hr change ↦ change.isRequested hr) ho
      hs.requested).2
  waiting before := by
    rcases h.host_cases alone kept ho with ⟨rfl, now⟩ | ⟨same, now⟩ | ⟨moment, rfl, -, waits, -⟩
    · exact now.trans (hs.waiting (State.isBeforeStop_of_stepHost before))
    · exact now.trans (hs.waiting (same ▸ before))
    -- It goes on at once, so no time passes.
    · have goes : s.hostIsEnabled = true := by
        have before : s.host.isBeforeStop = true := before
        unfold State.hostIsEnabled
        cases host : s.host with
        | fresh => rfl
        | serving watcher hasRelay => simp [hs.requested]
        | _ => rw [host] at before; cases before
      rw [waits] at goes
      cases goes
  stopping run deadline left host := by
    rcases h.host_cases alone kept ho with ⟨rfl, now⟩ | ⟨same, now⟩ |
      ⟨moment, rfl, -, waits, timers⟩
    · obtain ⟨early, ⟨before, rfl⟩ | ⟨run', left', before⟩⟩ := State.stopping_stepHost near host
      · exact ⟨now.symm ▸ early, Nat.le_of_eq (by rw [hs.waiting before])⟩
      · rw [now]
        exact hs.stopping _ _ _ before
    · rw [now]
      exact hs.stopping _ _ _ (same ▸ host)
    · have host : s.host = .stopping run deadline left := host
      exact ⟨State.le_deadline_of_pass host waits timers, (hs.stopping _ _ _ host).2⟩

/-! ### Whole runs -/

/-- It is admitted while a run goes on that nobody gives up and nobody asks for again. -/
def Deed.StaysIn (admits : Deed → Prop) (d : Deed) : Prop :=
  admits d ∧ d ≠ .call ∧ d ≠ .abandon

/-- What a run that was asked for in `s₀` has said of its end by `t`. -/
structure State.EndsOnce (S : Setup) (admits : Deed → Prop) (s₀ t : State) : Prop where
  /-- Before the shutdown has begun, nothing. -/
  unsaid : t.isRequested = false → t.endings = s₀.endings
  /-- Not more than once how its stop ended. -/
  once : t.endings ≤ s₀.endings + 1
  /-- Once exactly as soon as more than the grace has passed since the shutdown had begun. -/
  due : t.isRequested = true → ∀ u, Reaches S (Deed.StaysIn admits) t u →
    t.now + S.settings.grace.millisUp < u.now → u.endings = s₀.endings + 1
  /-- Once exactly when it is over; and what comes of it tells the cause of the shutdown. -/
  result : ∀ r, t.host = .finished r → t.endings = s₀.endings + 1 ∧ r.IsFor t.cause

/-- A run that has been promptly on its way for longer than the grace has said how its stop
ended. -/
theorem State.IsPrompt.endings_eq {m : Nat} (h : s.IsPrompt S m) (hs : s.IsAt b)
    (late : m + S.settings.grace.millisUp < s.now) : s.endings = b + 1 := by
  obtain ⟨n, said, stands⟩ := hs
  have isOver : n ≠ 0 := by
    intro none
    have before := stands.eq_zero_iff.1 none
    cases host : s.host with
    | fresh =>
      have now := h.waiting (by rw [host]; rfl)
      omega
    | serving watcher hasRelay =>
      have now := h.waiting (by rw [host]; rfl)
      omega
    | stopping run deadline left =>
      have early := h.stopping run deadline left host
      omega
    | _ => rw [host] at before; cases before
  have one : n = 1 := by
    have most := stands.le_one
    omega
  rw [said, one]

theorem Reaches.endsOnce {s₀ t : State} (near : S.settings.grace.isBeyondClocks = false)
    (honest : ∀ e, admits (.publish e) → e.kind.isOwn = false) (orderly : s₀.IsOrderly)
    (fresh : s₀.host = .fresh) (run : Reaches S (Deed.StaysIn admits) s₀ t) :
    State.EndsOnce S admits s₀ t := by
  have honest' : ∀ e, Deed.StaysIn admits (.publish e) → e.kind.isOwn = false :=
    fun e he ↦ honest e he.1
  have alone : ¬ Deed.StaysIn admits .call := fun h ↦ h.2.1 rfl
  have kept : ¬ Deed.StaysIn admits .abandon := fun h ↦ h.2.2 rfl
  have begins : s₀.IsAt s₀.endings := ⟨0, rfl, fresh ▸ .fresh⟩
  have timely : s₀.IsTimely S := by
    intro run deadline left host
    rw [fresh] at host
    cases host
  have stands : ∀ {u : State}, Reaches S (Deed.StaysIn admits) s₀ u →
      u.IsOrderly ∧ u.IsAt s₀.endings ∧ u.IsTimely S := fun h ↦
    h.keeps (P := fun u ↦ u.IsOrderly ∧ u.IsAt s₀.endings ∧ u.IsTimely S)
      (fun hu step ↦ ⟨step.isOrderly hu.1, step.isAt near honest' alone kept hu.1 hu.2.1,
        step.isTimely near alone kept hu.1 hu.2.2⟩) ⟨orderly, begins, timely⟩
  obtain ⟨orderly', ⟨n, said, at_⟩, timely'⟩ := stands run
  refine ⟨fun unasked ↦ ?_, ?_, fun begun u later late ↦ ?_, fun r isOver ↦ ?_⟩
  · have cause : t.cause = none := Option.not_isSome_iff_eq_none.1 (Bool.eq_false_iff.1 unasked)
    rw [cause] at at_
    rw [said, at_.eq_zero_of_unasked]
    rfl
  · rw [said]
    exact Nat.add_le_add_left at_.le_one _
  · have prompt : t.IsPrompt S t.now := ⟨begun, fun _ ↦ rfl, timely'⟩
    have prompt' := (later.keeps (P := fun u ↦ u.IsOrderly ∧ u.IsPrompt S t.now)
      (fun hu step ↦ ⟨step.isOrderly hu.1, step.isPrompt near alone kept hu.1 hu.2⟩)
      ⟨orderly', prompt⟩).2
    exact prompt'.endings_eq (stands (run.trans later)).2.1 late
  · rw [isOver] at at_
    cases at_ with
    | finished begun isFor => exact ⟨said, isFor⟩

/-- **The shutdown is admitted once and silences the watchers.** As long as nobody else speaks in
the name of the supervisor, at every moment of every run: exactly the first request for the shutdown
was admitted, its cause was told once, and nothing was said of restarts from then on; the cause
stays for good; and a run says once how its stop ended, within its grace, and ends with an
escalation exactly when the cause is one. -/
theorem shutdown_silences {bus : Bus} {recorder : Option Recorder} {now : Nat}
    (honest : ∀ e, admits (.publish e) → e.kind.isOwn = false)
    (run : Reaches S admits (State.initial S bus recorder now) s) :
    Admission s.cause s.requests s.events ∧
      (∀ c, s.cause = some c → ∀ s', Reaches S admits s s' → s'.cause = some c) ∧
      (S.settings.grace.isBeyondClocks = false → s.host = .fresh →
        ∀ t, Reaches S (Deed.StaysIn admits) s t → State.EndsOnce S admits s t) := by
  have orderly := (run.keeps_changes (P := fun _ ↦ True) (fun _ _ _ ↦ trivial)
    (State.isOrderly_initial S bus recorder now) trivial).1
  exact ⟨run.admission honest, fun c hc s' later ↦ later.cause orderly hc,
    fun near fresh t during ↦ during.endsOnce near honest orderly fresh⟩

end Run

/-! ### A resource that crashes -/

/-- Its resource crashes, and then asks for the shutdown by itself. -/
def Setup.crashing : Setup := .single fun _ ↦
  { serve := [.mark (.crashed (.plain "fatal" "boom")), .request (.requested "bye")] }

/-- A run of it from start to end. Three ask for the shutdown: the watcher, somebody outside, and
the resource. -/
def Cue.crash : List Cue :=
  [.turn .host] ++ .replicate 4 (.turn (.cycle 0)) ++ .replicate 4 (.turn (.watcher 0)) ++
    [.deed (.request (.requested "done"))] ++ .replicate 3 (.turn (.cycle 0)) ++
    [.turn .host, .turn (.watcher 0), .turn .host] ++ .replicate 8 (.turn .relay) ++
    .replicate 2 (.turn .host)

/-- The run of the crashing resource is over. -/
def State.crashingEnded : State := (State.asked .crashing).play .crashing Cue.crash

/-- The watcher comes first, so the run ends with an escalation, and says once that everything has
stopped. -/
theorem crashing_silences :
    Admission (some (.escalated "a" "boom"))
        [(.escalated "a" "boom", true), (.requested "done", false), (.requested "bye", false)]
        State.crashingEnded.events ∧
      State.crashingEnded.endings = 1 ∧
      ∃ failures,
        State.crashingEnded.host = .finished (.error (.escalated "a: boom" failures)) := by
  let admits (d : Deed) : Prop := d = .call ∨ d = .request (.requested "done")
  have honest : ∀ e, admits (.publish e) → e.kind.isOwn = false := by
    rintro e (he | he) <;> cases he
  have begun : Reaches .crashing admits (State.atRest .crashing) (State.asked .crashing) :=
    State.reaches_asked .crashing (.inl rfl)
  have playable : State.isPlayable .crashing Cue.crash (State.asked .crashing) = true := by
    decide +kernel
  have only : ∀ d, .deed d ∈ Cue.crash → d = .request (.requested "done") := by
    simp [Cue.crash]
  have whole : Reaches .crashing admits (State.atRest .crashing) State.crashingEnded :=
    State.reaches_play begun playable fun d hd ↦ .inr (only d hd)
  have during : Reaches .crashing (Deed.StaysIn admits) (State.asked .crashing)
      State.crashingEnded := by
    refine State.reaches_play (.refl _) playable fun d hd ↦ ?_
    rw [only d hd]
    exact ⟨.inr rfl, nofun, nofun⟩
  obtain ⟨admission, -, -⟩ := shutdown_silences honest whole
  have requests : State.crashingEnded.requests
      = [(.escalated "a" "boom", true), (.requested "done", false), (.requested "bye", false)] := by
    decide +kernel
  have cause : State.crashingEnded.cause = some (.escalated "a" "boom") := by decide +kernel
  rw [cause, requests] at admission
  have ends := (shutdown_silences honest begun).2.2 (by decide) rfl _ during
  obtain ⟨r, isOver⟩ : ∃ r, State.crashingEnded.host = .finished r :=
    ⟨.error (.escalated "a: boom" [⟨"a", .crashed, some "boom"⟩]), by decide +kernel⟩
  obtain ⟨said, isFor⟩ := ends.result r isOver
  obtain ⟨failures, escalated⟩ := (isFor "a: boom").2 ⟨"a", "boom", cause, rfl⟩
  exact ⟨admission, said, failures, escalated ▸ isOver⟩

/-! ### News of restarts after the shutdown has begun -/

/-- If the shutdown begins while a watcher is held up that has a restart to tell of, it tells of it
all the same. -/
theorem State.not_admission_announce {t : State} (c : Cause) (unasked : t.isRequested = false)
    (resource reason : String) (p n : Nat) (d : Span) (requests : List (Cause × Bool)) :
    ¬ Admission ((t.undergo (.request c)).announce resource reason p (.restart n d)).cause requests
      ((t.undergo (.request c)).announce resource reason p (.restart n d)).events := by
  have begun : ((t.undergo (.request c)).announce resource reason p (.restart n d)).cause =
      some c := cause_request_of_unasked c unasked
  have events : ((t.undergo (.request c)).announce resource reason p (.restart n d)).events =
      (t.undergo (.request c)).events ++ [.scheduled resource n d reason] :=
    (events_enter_of_quiet (by rfl)).trans (events_publish _ _)
  intro admission
  rw [events, begun] at admission
  cases admission.isRestart_of_last

/-- **A restart may be told of after the shutdown has begun**: when somebody outside publishes such
news, and when a watcher was held up that had looked at the shutdown before. -/
theorem restart_after_shutdown :
    (∃ s, Reaches .mending (fun d ↦ d = .request (.requested "done") ∨ d = .publish .rumour)
        (.atRest .mending) s ∧
      ¬ Admission s.cause s.requests s.events) ∧
    ∃ s t rest, Reaches .mending (· = .call) (.atRest .mending) s ∧
      HeldUp .mending s (.watcher 0) t rest ∧
      ¬ Admission (rest (t.undergo (.request (.requested "done")))).cause
        (rest (t.undergo (.request (.requested "done")))).requests
        (rest (t.undergo (.request (.requested "done")))).events := by
  constructor
  · let asked := (State.atRest .mending).undergo (.request (.requested "done"))
    refine ⟨asked.undergo (.publish .rumour), .step (.step (.refl _) (.deed _ (.inl rfl)))
      (.deed _ (.inr rfl)), fun admission ↦ ?_⟩
    have cause : (asked.undergo (.publish .rumour)).cause = some (.requested "done") := by
      decide +kernel
    have events : (asked.undergo (.publish .rumour)).events = asked.events ++ [.rumour] :=
      State.events_publish _ _
    rw [cause, events] at admission
    cases admission.isRestart_of_last
  · obtain ⟨t, held, -, unasked⟩ := State.exists_heldUp_mendingFailed
    exact ⟨_, t, _, State.reaches_mendingFailed, held,
      State.not_admission_announce _ unasked _ _ _ _ _ _⟩

end Supervision
