import Supervision.Proofs.Supervisor.Delivery
import Supervision.Proofs.Supervisor.Tracking

/-!
# The session of a run

The run that finds the session of the record store open closes it when it ends.

Two write into that session: the tracker notes crashes as they come, and the end of the run says how
the run ended. They meet in one rule of the store: the first error of a session stays. So the status
of a closed session tells how the run ended, and its error is the first crash that the tracker got
through to the store, if there is one, however the run ended (`session_agrees_with_run`). That holds
whatever records others write, but nobody else may write into the session or close it
(`Recorder.Use`). A resource that crashes over its own stop leaves such a crash with a run that ends
well, and so do others who note an error or close the session (`session_can_disagree_with_run`).

* `State.turn_stepHost` — what the host does with the recorder, turn by turn.
* `State.KeepsSession` — until a run closes it, the session is open and follows the tracker.
* `State.IsClosing` — how far a run is with the session.
-/

namespace Supervision

/-- The run has not begun to close the session. -/
def HostStage.isBeforeClosing : HostStage → Bool
  | .fresh | .serving _ _ | .stopping _ _ _ | .joiningWatcher _ | .joiningRelay _ => true
  | .absent | .closing _ _ | .finished _ => false

/-- The stop is over; the run waits for those it has started beside the resources. -/
def HostStage.Joins (run : Shutting) (stage : HostStage) : Prop :=
  stage = .joiningWatcher run ∨ stage = .joiningRelay run

theorem HostStage.Joins.isBeforeClosing {run : Shutting} {stage : HostStage} (h : stage.Joins run) :
    stage.isBeforeClosing = true := by
  rcases h with rfl | rfl <;> rfl

theorem HostStage.isBeforeClosing_of_isBeforeEnd {stage : HostStage}
    (h : stage.isBeforeEnd = true) : stage.isBeforeClosing = true := by
  cases stage with
  | fresh | serving | stopping => rfl
  | absent | joiningWatcher | joiningRelay | closing | finished => cases h

namespace State

variable {S : Setup} {admits : Deed → Prop} {s t s₀ : State} {r : Recorder} {id : Int}

/-! ### What the host does with the recorder -/

/-- What a turn of the host comes to for the recorder. -/
inductive HostTurn (S : Setup) (r : Recorder) (s : State) : State → Prop where
  | rests : HostTurn S r s s
  | goesOn {t : State} (before : s.host.isBeforeClosing = true) (has : t.recorder = some r)
    (after : t.host.isBeforeClosing = true ∨ ∃ m, t.host = .finished (.panicked m)) :
    HostTurn S r s t
  /-- The result is known; the recorder is told to finish. -/
  | concludes {t : State} {run : Shutting} (joins : s.host.Joins run)
    (unfinished : r.finished = false) (has : t.recorder = some r.beginFinish)
    (host : t.host = .closing (result S run)
      (some (sessionEnd (result S run) (s.crashBehind S run.cause)))) :
    HostTurn S r s t
  /-- The result is known; the session was closed before, or somebody else closes it. -/
  | leaves {t : State} {run : Shutting} (joins : s.host.Joins run) (finished : r.finished = true)
    (has : t.recorder = some r) (host : t.host = .closing (result S run) none) : HostTurn S r s t
  | ends {t : State} {result : RunEnd} (closing : s.host = .closing result none)
    (has : t.recorder = some r) (host : t.host = .finished result) : HostTurn S r s t
  /-- The writer is over, and the session is closed. -/
  | closes {t : State} {result : RunEnd} {ending : SessionEnd}
    (closing : s.host = .closing result (some ending)) (ended : r.writer.stage = .ended)
    (has : t.recorder = some (r.closeSession ending (S.calendar s.now)).2)
    (host : (r.closeSession ending (S.calendar s.now)).1 = .ok () → t.host = .finished result) :
    HostTurn S r s t

/-- When the run is over, the host has nothing to do. -/
theorem HostTurn.eq_of_finished (turn : HostTurn S r s t) {result : RunEnd}
    (host : s.host = .finished result) : t = s := by
  cases turn with
  | rests => rfl
  | goesOn before => rw [host] at before; cases before
  | concludes joins | leaves joins =>
    have before := joins.isBeforeClosing
    rw [host] at before
    cases before
  | ends closing | closes closing => cases host.symm.trans closing

theorem Stops.isBeforeClosing {has : Bool} (h : Stops has s t) :
    t.host.isBeforeClosing = true := by
  cases h with
  | goesOn relay fanout before => exact HostStage.isBeforeClosing_of_isBeforeEnd before
  | ends relay fanout host => rw [host]; rfl

theorem recorder_startCycles (places : List Nat) (s : State) :
    (places.foldl (fun s place ↦ s.startCycle place) s).recorder = s.recorder := by
  induction places generalizing s with
  | nil => rfl
  | cons place rest ih => exact ih (s.startCycle place)

theorem recorder_beginRun (S : Setup) (s : State) : (s.beginRun S).recorder = s.recorder := by
  rw [beginRun]
  refine (recorder_startCycles _ _).trans ?_
  show State.recorder (if s.relay.isNone then _ else s) = _
  split <;> rfl

theorem recorder_stopFrom (run : Shutting) (deadline : Nat) (told : Bool)
    (left : List (Nat × Nat)) (s : State) :
    (s.stopFrom S run deadline told left).recorder = s.recorder := by
  have step := stopStep_stopFrom S run deadline told left s
  generalize s.stopFrom S run deadline told left = t at step ⊢
  induction step with
  | ends | waits => rfl
  | tells _ ih | skips _ _ ih | aborts _ _ _ ih => exact ih

theorem recorder_beginStop (watcher : Nat) (hasRelay : Bool) (s : State) :
    (s.beginStop S watcher hasRelay).recorder = s.recorder := by
  have heard : s.hear.recorder = s.recorder := by rw [hear_frame]
  cases far : S.settings.grace.isBeyondClocks with
  | true =>
    rw [beginStop_of_far far]
    exact heard
  | false =>
    rw [beginStop_of_near far, recorder_stopFrom]
    exact heard

theorem turn_conclude (has : s.recorder = some r) {run : Shutting} (joins : s.host.Joins run) :
    HostTurn S r s (s.conclude S run) := by
  rw [conclude, has]
  dsimp only
  by_cases finished : r.finished = true
  · rw [if_pos finished]
    exact .leaves joins finished rfl rfl
  · rw [if_neg finished]
    exact .concludes joins (Bool.eq_false_iff.mpr finished) rfl rfl

theorem turn_stepClosing (has : s.recorder = some r) {result : RunEnd} {ending : Option SessionEnd}
    (closing : s.host = .closing result ending) (ready : (ending.isNone || s.writerIsOver) = true) :
    HostTurn S r s (s.stepClosing S result ending) := by
  cases ending with
  | none => exact .ends closing has rfl
  | some ending =>
    have ended : r.writer.stage = .ended := by
      rw [writerIsOver, has] at ready
      exact of_decide_eq_true ready
    have after : (s.closeSession S ending).2.recorder
        = some (r.closeSession ending (S.calendar s.now)).2 := by
      rw [closeSession, has]
    refine .closes closing ended after fun closed ↦ ?_
    have fault : (s.closeSession S ending).1 = none := by
      rw [closeSession, has]
      simp only [closed]
    show HostStage.finished ((s.closeSession S ending).1.elim _ _) = _
    rw [fault]
    rfl

/-- **What the host does with the recorder**: it tells it to finish when the result is known, and
closes the session when the writer is over. -/
theorem turn_stepHost (S : Setup) (has : s.recorder = some r) : HostTurn S r s (s.stepHost S) := by
  cases stage : s.host with
  | absent | finished => rw [stepHost, stage]; exact .rests
  | fresh =>
    rw [stepHost, stage]
    obtain ⟨-, -, -, host⟩ := beginRun_frame S s
    exact .goesOn (by rw [stage]; rfl) ((recorder_beginRun S s).trans has)
      (.inl (by rw [host]; rfl))
  | serving watcher hasRelay =>
    rw [stepHost, stage]
    dsimp only
    split
    · refine .goesOn (by rw [stage]; rfl) ((recorder_beginStop watcher hasRelay s).trans has) ?_
      rcases beginStop_stops (S := S) watcher hasRelay s with stops | ⟨-, -, broken⟩
      · exact .inl stops.isBeforeClosing
      · exact .inr broken
    · exact .rests
  | stopping run deadline left =>
    rw [stepHost, stage]
    have stops := stopFrom_stops (S := S) run deadline true left s rfl
    exact .goesOn (by rw [stage]; rfl) ((recorder_stopFrom _ _ _ _ s).trans has)
      (.inl stops.isBeforeClosing)
  | joiningWatcher run =>
    rw [stepHost, stage]
    dsimp only
    split
    · split
      · exact .goesOn (by rw [stage]; rfl) has (.inl rfl)
      · exact turn_conclude has (.inl stage)
    · exact .rests
  | joiningRelay run =>
    rw [stepHost, stage]
    dsimp only
    split
    · exact turn_conclude has (.inr stage)
    · exact .rests
  | closing result ending =>
    rw [stepHost, stage]
    dsimp only
    split
    · exact turn_stepClosing has stage ‹_›
    · exact .rests

/-! ### Before the run -/

/-- Until the recorder is told to finish, its session is open and follows the tracker, and no run is
about to close it. -/
def KeepsSession (S : Setup) (id : Int) (s : State) : Prop :=
  ∃ r, s.recorder = some r ∧ r.session = id ∧ (r.finished = false →
    (∃ told, r.writer.IsOpen id (s.noted S) told) ∧
      ∀ result ending, s.host ≠ .closing result (some ending))

theorem KeepsSession.initial {settings : RecordSettings} {clock : Stamp} {store : Store}
    (start : Recorder.start settings clock store = .ok r) (S : Setup) (bus : Bus) (now : Nat) :
    (State.initial S bus (some r) now).KeepsSession S r.session := by
  refine ⟨r, rfl, rfl, fun _ ↦ ⟨⟨[], ?_⟩, nofun⟩⟩
  rw [noted_initial]
  exact (Recorder.isOpen_of_start start).1

/-- A turn of the host goes on with the session, or has told the recorder to finish. -/
theorem KeepsSession.turn (h : s.KeepsSession S id) : (s.stepHost S).KeepsSession S id := by
  obtain ⟨r, has, own, kept⟩ := h
  have noted_ := noted_of_fanout (S := S) (stepHost_frame S s).1
  have turn := turn_stepHost S has
  rw [KeepsSession, noted_]
  generalize s.stepHost S = t at turn
  cases turn with
  | rests => exact ⟨r, has, own, kept⟩
  | goesOn before has after =>
    refine ⟨r, has, own, fun unfinished ↦ ⟨(kept unfinished).1, fun result ending closing ↦ ?_⟩⟩
    rw [closing] at after
    rcases after with before | ⟨m, broken⟩
    · cases before
    · cases broken
  | concludes joins unfinished has => exact ⟨_, has, own, nofun⟩
  | leaves joins finished has host =>
    exact ⟨r, has, own, fun unfinished ↦ absurd (unfinished.symm.trans finished) Bool.false_ne_true⟩
  | ends closing has host =>
    refine ⟨r, has, own, fun unfinished ↦ ⟨(kept unfinished).1, fun result ending closing ↦ ?_⟩⟩
    cases host.symm.trans closing
  | closes closing ended has =>
    exact ⟨_, has, own, fun unfinished ↦ absurd closing ((kept unfinished).2 _ _)⟩

theorem KeepsSession.moves (h : s.KeepsSession S id) (has : s.recorder = some r)
    (moves : s.MovesOn S r t)
    (host : t.host = s.host ∨ admits .call ∧ t.host = .fresh ∨ admits .abandon ∧ t.host = .absent) :
    t.KeepsSession S id := by
  obtain ⟨r, has', rfl, kept⟩ := h
  cases has.symm.trans has'
  obtain ⟨news, r', move, has', noted_⟩ := moves
  obtain ⟨session, finished⟩ := move.frame
  refine ⟨r', has', session, fun unfinished ↦ ?_⟩
  obtain ⟨⟨told, opened⟩, away⟩ := kept (finished.symm.trans unfinished)
  refine ⟨noted_ ▸ move.isOpen opened, fun result ending closing ↦ ?_⟩
  rcases host with same | ⟨-, fresh⟩ | ⟨-, absent⟩
  · exact away result ending (same ▸ closing)
  · cases fresh.symm.trans closing
  · cases absent.symm.trans closing

end State

theorem SharedReaches.keepsSession {S : Setup} {admits : Deed → Prop} {s t : State} {id : Int}
    (h : SharedReaches S admits s t) (ho : s.IsOrderly) (kept : s.KeepsSession S id) :
    t.IsOrderly ∧ t.KeepsSession S id := by
  induction h with
  | refl => exact ⟨ho, kept⟩
  | tail _ last ih =>
    obtain ⟨ho, kept⟩ := ih
    refine ⟨last.isOrderly ho, ?_⟩
    have ⟨r, has, _⟩ := kept
    rcases last.host_or_moves ho has with rfl | ⟨moves, host⟩
    · exact kept.turn
    · exact kept.moves has moves host

namespace State

variable {S : Setup} {admits : Deed → Prop} {s t s₀ : State} {r : Recorder} {id : Int}

/-! ### During the run -/

/-- How far a run that began in `s₀` is with the session of this recorder. Once its result is known,
it is that of a stop which was over in a state `d` on the way. -/
inductive IsClosing (S : Setup) (admits : Deed → Prop) (s₀ : State) (r : Recorder) (s : State) :
    Prop where
  | before {told : List Failure} (unfinished : r.finished = false)
    (host : s.host.isBeforeClosing = true) (opened : r.writer.IsOpen r.session (s.noted S) told)
  | closing {told : List Failure} {d : State} {run : Shutting}
    (passed : SharedReaches S admits s₀ d) (joins : d.host.Joins run)
    (host : s.host = .closing (result S run)
      (some (sessionEnd (result S run) (d.crashBehind S run.cause))))
    (opened : r.writer.IsOpen r.session (s.noted S) told) (since : SharedReaches S admits d s)
  | closed {told : List Failure} {d : State} {run : Shutting}
    (passed : SharedReaches S admits s₀ d) (joins : d.host.Joins run)
    (host : s.host = .finished (result S run))
    (closed : r.writer.IsClosed r.session (s.noted S) told
      (sessionEnd (result S run) (d.crashBehind S run.cause)))
    (since : SharedReaches S admits d s)
  | broken {m : String} (host : s.host = .finished (.panicked m))

/-- The recorder moves on, and the host stays where it is. -/
theorem IsClosing.moves (way : IsClosing S admits s₀ r s) (last : SharedStep S admits s t)
    (moves : s.MovesOn S r t) (host : t.host = s.host) :
    ∃ r', t.recorder = some r' ∧ r'.session = r.session ∧ IsClosing S admits s₀ r' t := by
  obtain ⟨news, r', move, has, noted_⟩ := moves
  obtain ⟨session, finished⟩ := move.frame
  refine ⟨r', has, session, ?_⟩
  cases way with
  | before unfinished before opened =>
    obtain ⟨told', opened⟩ := move.isOpen opened
    exact .before (finished.trans unfinished) (host ▸ before) (session ▸ noted_ ▸ opened)
  | closing passed joins closing opened since =>
    obtain ⟨told', opened⟩ := move.isOpen opened
    exact .closing passed joins (host.trans closing) (session ▸ noted_ ▸ opened) (since.tail last)
  | closed passed joins over_ closed since =>
    exact .closed passed joins (host.trans over_) (session ▸ noted_ ▸ move.isClosed closed)
      (since.tail last)
  | broken broken => exact .broken (host.trans broken)

/-- The host goes on. -/
theorem IsClosing.turn (way : IsClosing S admits s₀ r s) (has : s.recorder = some r)
    (reached : SharedReaches S admits s₀ s) (last : SharedStep S admits s t)
    (turn : HostTurn S r s t) (noted_ : t.noted S = s.noted S) :
    ∃ r', t.recorder = some r' ∧ r'.session = r.session ∧ IsClosing S admits s₀ r' t := by
  cases way with
  | before unfinished host opened =>
    rw [← noted_] at opened
    cases turn with
    | rests => exact ⟨r, has, rfl, .before unfinished host opened⟩
    | goesOn _ has after =>
      rcases after with before | ⟨m, broken⟩
      · exact ⟨r, has, rfl, .before unfinished before opened⟩
      · exact ⟨r, has, rfl, .broken broken⟩
    | concludes joins _ has closing =>
      exact ⟨_, has, rfl,
        .closing reached joins closing (Recorder.isOpen_beginFinish opened) (.single last)⟩
    | leaves joins finished =>
      exact absurd (unfinished.symm.trans finished) Bool.false_ne_true
    | ends closing | closes closing => rw [closing] at host; cases host
  | closing passed joins host opened since =>
    rw [← noted_] at opened
    cases turn with
    | rests => exact ⟨r, has, rfl, .closing passed joins host opened since⟩
    | closes closing ended has over_ =>
      cases host.symm.trans closing
      obtain ⟨succeeds, closed⟩ :=
        Recorder.isClosed_closeSession opened ended _ (S.calendar s.now)
      exact ⟨_, has, rfl, .closed passed joins (over_ succeeds) closed (since.tail last)⟩
    | ends closing => cases host.symm.trans closing
    | goesOn before => rw [host] at before; cases before
    | concludes joins | leaves joins =>
      have before := joins.isBeforeClosing
      rw [host] at before
      cases before
  | closed passed joins host closed since =>
    cases turn.eq_of_finished host
    exact ⟨r, has, rfl, .closed passed joins host closed since⟩
  | broken host =>
    cases turn.eq_of_finished host
    exact ⟨r, has, rfl, .broken host⟩

end State

theorem SharedReaches.isClosing {S : Setup} {admits : Deed → Prop} {s₀ t : State} {r₀ : Recorder}
    (alone : ¬ admits .call) (kept : ¬ admits .abandon) (run : SharedReaches S admits s₀ t)
    (ho : s₀.IsOrderly) (has : s₀.recorder = some r₀) (begins : State.IsClosing S admits s₀ r₀ s₀) :
    t.IsOrderly ∧ ∃ r, t.recorder = some r ∧ r.session = r₀.session ∧
      State.IsClosing S admits s₀ r t := by
  induction run with
  | refl => exact ⟨ho, r₀, has, rfl, begins⟩
  | @tail s t reached last ih =>
    obtain ⟨ho, r, has, own, way⟩ := ih
    refine ⟨last.isOrderly ho, ?_⟩
    have goes : ∃ r' : Recorder, t.recorder = some r' ∧ r'.session = r.session ∧
        State.IsClosing S admits s₀ r' t := by
      rcases last.host_or_moves ho has with rfl | ⟨moves, host⟩
      · exact way.turn has reached last (State.turn_stepHost S has)
          (State.noted_of_fanout (State.stepHost_frame S s).1)
      · rcases host with same | ⟨called, -⟩ | ⟨given, -⟩
        · exact way.moves last moves same
        · exact absurd called alone
        · exact absurd given kept
    obtain ⟨r', has, session, way⟩ := goes
    exact ⟨r', has, session.trans own, way⟩

/-! ### How a session ends -/

namespace State

variable {result : RunEnd} {crash : Option Failure}

/-- A run that has ended with `result` has closed its session, and left this row of it. The session
was told of the crashes `told` in time, and `crash` is the one behind an escalation. -/
structure ClosesSession (S : Setup) (result : RunEnd) (crash : Option Failure)
    (told : List Failure) (r : Recorder) (row : Store.SessionRow) (t : State) : Prop where
  has : t.recorder = some r
  found : r.store.sessions.find? (·.id == r.session) = some row
  /-- It succeeded if and only if the run ended well. -/
  success : row.status = SessionStatus.success.name ↔ result = .ok
  /-- Otherwise it ended with an error. -/
  error : row.status = SessionStatus.error.name ↔ result ≠ .ok
  /-- Its error is the first crash, else what the run ended with. -/
  detail : row.HasError (told.head?.or (sessionEnd result crash).failure?)
  /-- It has none if and only if the run ended well and there was no crash. -/
  clean : (row.errorType = none ∧ row.errorMessage = none ∧ row.errorTrace = none) ↔
    result = .ok ∧ told = []
  /-- The tracker has noted these crashes, in this order. -/
  part : told.Sublist (t.noted S)
  /-- Unless something was lost for want of room, these are all that it has noted. -/
  all : r.dropped = 0 → told = t.noted S

theorem status_sessionEnd (returns : ∀ m, result ≠ .panicked m) (crash : Option Failure) :
    (sessionEnd result crash).status = if result = .ok then .success else .error := by
  cases result with
  | ok => rfl
  | error e => cases crash <;> rfl
  | panicked m => exact absurd rfl (returns m)

theorem failure?_sessionEnd (returns : ∀ m, result ≠ .panicked m) (crash : Option Failure) :
    (sessionEnd result crash).failure? = none ↔ result = .ok := by
  cases result with
  | ok => exact ⟨fun _ ↦ rfl, fun _ ↦ rfl⟩
  | error e => cases crash <;> exact ⟨nofun, nofun⟩
  | panicked m => exact absurd rfl (returns m)

/-- A session that was closed with the end of a run tells how that ended. -/
theorem closesSession {S : Setup} {t : State} {r : Recorder} {told : List Failure}
    (has : t.recorder = some r) (returns : ∀ m, result ≠ .panicked m)
    (closed : r.writer.IsClosed r.session (t.noted S) told (sessionEnd result crash)) :
    ∃ row, t.ClosesSession S result crash told r row := by
  obtain ⟨-, row, found, named, -, detail⟩ := closed.session
  rw [status_sessionEnd returns] at named
  refine ⟨row, has, found, ?_, ?_, detail, ?_, closed.part, closed.all⟩
  · rw [named]
    split <;> simp_all [SessionStatus.name]
  · rw [named]
    split <;> simp_all [SessionStatus.name]
  · rw [detail.eq_none_iff, Option.or_eq_none_iff, List.head?_eq_none_iff,
      failure?_sessionEnd returns, and_comm]

end State

/-- **The session of a run agrees with how the run ended.** Take a supervisor with a recorder that
has just begun its session, and a run that finds it unfinished; whatever others do with the record
store meanwhile, short of writing into the session, when the run returns it has closed that session.
Its status is success if and only if the run ended well, and otherwise error. Its error is the first
crash that the tracker got through, if there is one, however the run ended; else it is that of the
result which was known once everything was stopped. -/
theorem session_agrees_with_run {S : Setup} {admits : Deed → Prop} {settings : RecordSettings}
    {clock : Stamp} {store : Store} {r₀ : Recorder} {bus : Bus} {now : Nat} {s₀ t : State}
    {result : RunEnd} (start : Recorder.start settings clock store = .ok r₀)
    (before : SharedReaches S admits (State.initial S bus (some r₀) now) s₀)
    (fresh : s₀.host = .fresh) (unfinished : ∀ r, s₀.recorder = some r → r.finished = false)
    (run : SharedReaches S (Deed.StaysIn admits) s₀ t) (gone : t.host = .finished result)
    (returns : ∀ m, result ≠ .panicked m) :
    ∃ d shutting told r row, SharedReaches S (Deed.StaysIn admits) s₀ d ∧
      d.host.Joins shutting ∧ result = State.result S shutting ∧ r.session = r₀.session ∧
      t.ClosesSession S result (d.crashBehind S shutting.cause) told r row := by
  have alone : ¬ Deed.StaysIn admits .call := fun h ↦ h.2.1 rfl
  have kept : ¬ Deed.StaysIn admits .abandon := fun h ↦ h.2.2 rfl
  obtain ⟨ho, r₁, has₁, own₁, keeps⟩ := before.keepsSession
    (State.isOrderly_initial S bus (some r₀) now) (.initial start S bus now)
  obtain ⟨⟨told, opened⟩, -⟩ := keeps (unfinished r₁ has₁)
  have begins : State.IsClosing S (Deed.StaysIn admits) s₀ r₁ s₀ :=
    .before (unfinished r₁ has₁) (by rw [fresh]; rfl) (own₁ ▸ opened)
  obtain ⟨-, r, has, own, way⟩ := run.isClosing alone kept ho has₁ begins
  cases way with
  | before _ host => rw [gone] at host; cases host
  | closing _ _ host => cases gone.symm.trans host
  | @closed told d shutting passed joins host closed =>
    cases gone.symm.trans host
    obtain ⟨row, closes⟩ := State.closesSession has returns closed
    exact ⟨d, shutting, told, r, row, passed, joins, rfl, own.trans own₁, closes⟩
  | @broken m host => exact absurd (HostStage.finished.inj (gone.symm.trans host)) (returns m)

/-! ### A crash over a stop -/

/-- A supervisor like `Setup.single` that notes crashes. -/
def Setup.noting (behaviour : Nat → Behaviour) : Setup :=
  { Setup.single behaviour with
    subscribers := #[{ name := Recorder.trackerName }]
    tracker := some 0 }

/-- Its resource serves until it is told to end, and crashes then. -/
def Setup.sour : Setup := .noting fun _ ↦ { serve := [.untilCancelled, .giveUp (.fatal "boom")] }

/-- The run begins, and its resource serves. -/
def Cue.noteServes : List Cue := turns [(.host, 1), (.cycle 0, 3)]

/-- Somebody asks for the shutdown, and the run ends after so many turns of the writer. -/
def Cue.noteEnds (writes : Nat) : List Cue :=
  .deed (.request (.requested "done")) ::
    turns [(.host, 1), (.cycle 0, 3), (.host, 1), (.watcher 0, 1), (.host, 1), (.relay, 7),
      (.worker 0, 7), (.relay, 1), (.host, 1), (.writer, writes), (.host, 1)]

/-- Nothing else is done from outside. -/
theorem Cue.eq_of_mem_noteEnds {d : Deed} {writes : Nat} (mem : .deed d ∈ noteEnds writes) :
    d = .request (.requested "done") := by
  simpa [noteEnds, deed_notMem_turns] using mem

/-- A run from start to end. -/
def Cue.sour : List Cue := noteServes ++ noteEnds 4

/-- A recorder that has just begun on an empty store. -/
def Recorder.fresh : Recorder where
  settings := .standard
  session := 1
  writer :=
    { sink := .ofCapacity 10000
      store := { sessions := [.opening 1 ⟨0⟩], sessionsGiven := 1 }
      batchSize := 100 }
  beats := .start (.ofSecs 30)
  sweeps := .start (.ofSecs 3600)

/-- The first sweep finds nothing to remove. -/
theorem Recorder.start_eq_fresh : start .standard ⟨0⟩ {} = .ok fresh := by
  have small : Store.footprint
      (fresh.store.expire (Store.horizon ⟨0⟩ RecordSettings.standard.retention)) ≤
        RecordSettings.standard.maxBytes := by
    decide
  have swept := Store.apply_sweep_of_le (s := fresh.store) rfl small
  show Except.ok (fresh.setStore ((Store.Operation.sweep Store.footprint ⟨0⟩
    RecordSettings.standard.retention RecordSettings.standard.maxBytes).apply fresh.store)) = _
  rw [swept]
  rfl

namespace State

/-- The first run of the supervisor is asked for. -/
def sourAsked : State := (State.initial .sour (.ofCapacity 1024) (some .fresh) 0).undergo .call

/-- The run is over. -/
def sourEnded : State := sourAsked.play .sour Cue.sour

theorem reaches_sour {admits : Deed → Prop} (call : admits .call)
    (asks : admits (.request (.requested "done"))) :
    Reaches .sour admits (State.initial .sour (.ofCapacity 1024) (some .fresh) 0) sourAsked ∧
      Reaches .sour (Deed.StaysIn admits) sourAsked sourEnded := by
  have playable : isPlayable .sour Cue.sour sourAsked = true := by decide +kernel
  refine ⟨.step (.refl _) (.deed .call call), reaches_play (.refl _) playable fun d mem ↦ ?_⟩
  rcases List.mem_append.mp mem with begins | ends
  · exact absurd begins (Cue.deed_notMem_turns d _)
  · rw [Cue.eq_of_mem_noteEnds ends]
    exact ⟨asks, nofun, nofun⟩

end State

/-- The tracker gets the crash through to the session of a run that ends well. -/
theorem sour_session_has_crash :
    ∃ crash r row, State.sourEnded.ClosesSession .sour .ok crash
      [(HookError.fatal "boom").failure] r row := by
  obtain ⟨before, run⟩ := @State.reaches_sour (fun _ ↦ True) trivial trivial
  have unfinished : ∀ r, State.sourAsked.recorder = some r → r.finished = false := by
    rintro r ⟨⟩
    rfl
  have gone : State.sourEnded.host = .finished .ok := by decide +kernel
  obtain ⟨d, shutting, told, r, row, -, -, -, -, closes⟩ :=
    session_agrees_with_run Recorder.start_eq_fresh before.shared rfl unfinished run.shared gone
      nofun
  have noted : State.sourEnded.noted .sour = [(HookError.fatal "boom").failure] := by
    decide +kernel
  have dropped : State.sourEnded.recorder.map (·.dropped) = some 0 := by decide +kernel
  rw [closes.has] at dropped
  have all := closes.all (Option.some.inj dropped)
  rw [noted] at all
  exact ⟨_, r, row, all ▸ closes⟩

/-! ### Others who write into the session -/

/-- Its resource serves until it is told to end. -/
def Setup.sweet : Setup := .noting fun _ ↦ { serve := [.untilCancelled] }

/-- Notes an error with the session. -/
def Recorder.blame (r : Recorder) : Recorder :=
  (r.offer (.sessionError r.session (HookError.fatal "boom").failure)).2.2

/-- Closes the session with an error. -/
def Recorder.closeBadly (r : Recorder) : Recorder :=
  (r.finish (.error (HookError.fatal "boom").failure) ⟨0⟩).2

namespace State

/-- Somebody else who holds the recorder does something with it. -/
def meddle (f : Recorder → Recorder) (s : State) : State := { s with recorder := s.recorder.map f }

/-- A run with a fresh recorder, in which somebody else does something with the recorder once, ends
well and leaves this row of its session. Nothing fails in the store. -/
def EndsWellWith (S : Setup) (f : Recorder → Recorder) (row : Store.SessionRow) : Prop :=
  ∃ (admits : Deed → Prop) (r₀ r : Recorder) (s₀ s t : State),
    Recorder.start .standard ⟨0⟩ {} = .ok r₀ ∧
    Reaches S admits (State.initial S (.ofCapacity 1024) (some r₀) 0) s₀ ∧ s₀.host = .fresh ∧
    Reaches S (Deed.StaysIn admits) s₀ s ∧ Reaches S (Deed.StaysIn admits) (s.meddle f) t ∧
    t.host = .finished .ok ∧ t.recorder = some r ∧
    r.store.sessions.find? (·.id == r.session) = some row

/-- A supervisor that notes crashes is asked for its first run, and its resource serves. -/
def noteServing (S : Setup) : State :=
  ((State.initial S (.ofCapacity 1024) (some .fresh) 0).undergo .call).play S Cue.noteServes

/-- Its run ends, after somebody else did something with the recorder. -/
def noteEnded (S : Setup) (f : Recorder → Recorder) (writes : Nat) : State :=
  ((noteServing S).meddle f).play S (Cue.noteEnds writes)

theorem exists_endsWellWith (S : Setup) (f : Recorder → Recorder) (writes : Nat)
    (status kind : String)
    (first : isPlayable S Cue.noteServes
      ((State.initial S (.ofCapacity 1024) (some .fresh) 0).undergo .call) = true)
    (last : isPlayable S (Cue.noteEnds writes) ((noteServing S).meddle f) = true)
    (gone : (noteEnded S f writes).host = .finished .ok)
    (left : ((noteEnded S f writes).recorder.bind fun r ↦
      r.store.sessions.find? (·.id == r.session)).map (fun row ↦ (row.status, row.errorType)) =
        some (status, some kind)) :
    ∃ row, EndsWellWith S f row ∧ row.status = status ∧ row.errorType = some kind := by
  obtain ⟨row, found, told⟩ := Option.map_eq_some_iff.mp left
  obtain ⟨r, has, found⟩ := Option.bind_eq_some_iff.mp found
  refine ⟨row, ⟨fun _ ↦ True, .fresh, r, _, noteServing S, noteEnded S f writes,
    Recorder.start_eq_fresh, .step (.refl _) (.deed .call trivial), rfl,
    reaches_play (.refl _) first fun d mem ↦ absurd mem (Cue.deed_notMem_turns d _),
    reaches_play (.refl _) last fun d mem ↦ ?_, gone, has, found⟩,
    (Prod.mk.inj told).1, (Prod.mk.inj told).2⟩
  rw [Cue.eq_of_mem_noteEnds mem]
  exact ⟨trivial, nofun, nofun⟩

end State

/-- **A run that ends well can leave a session with an error**: when the resource crashes while it is
being stopped, although nobody else touches the recorder; or when somebody else notes an error with
the session. If somebody else closes the session, its status need not be that of the run. -/
theorem session_can_disagree_with_run :
    (∃ row, State.EndsWellWith .sour id row ∧ row.status = SessionStatus.success.name ∧
      ¬ ((row.errorType = none ∧ row.errorMessage = none ∧ row.errorTrace = none) ↔
        row.status = SessionStatus.success.name)) ∧
    (∃ row, State.EndsWellWith .sweet Recorder.blame row ∧
      row.status = SessionStatus.success.name ∧
      ¬ (row.errorType = none ∧ row.errorMessage = none ∧ row.errorTrace = none)) ∧
    ∃ row, State.EndsWellWith .sweet Recorder.closeBadly row ∧
      row.status = SessionStatus.error.name := by
  refine ⟨?_, ?_, ?_⟩
  · obtain ⟨row, ends, status, kind⟩ := State.exists_endsWellWith .sour id 4 "success"
      "resource_fatal" (by decide +kernel) (by decide +kernel) (by decide +kernel)
      (by decide +kernel)
    exact ⟨row, ends, status, fun agrees ↦ nomatch kind.symm.trans (agrees.mpr status).1⟩
  · obtain ⟨row, ends, status, kind⟩ := State.exists_endsWellWith .sweet Recorder.blame 4
      "success" "resource_fatal" (by decide +kernel) (by decide +kernel) (by decide +kernel)
      (by decide +kernel)
    exact ⟨row, ends, status, fun none_ ↦ nomatch kind.symm.trans none_.1⟩
  · obtain ⟨row, ends, status, -⟩ := State.exists_endsWellWith .sweet Recorder.closeBadly 0
      "error" "resource_fatal" (by decide +kernel) (by decide +kernel) (by decide +kernel)
      (by decide +kernel)
    exact ⟨row, ends, status⟩

end Supervision
