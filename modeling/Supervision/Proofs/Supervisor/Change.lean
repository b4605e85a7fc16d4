import Mathlib.Logic.Relation
import Supervision.Supervisor.Chronicle
import Supervision.Supervisor.Step

/-!
# What a step is made of

A step of a task does several things one after the other, and each of them is one of a few kinds: a
`Change`. Everything that a supervisor can do is listed here once, with what is known when it is
done; what is shown of every change is then shown of every step.

* `changes_step` — a step of a task is a chain of its changes.
* `changes_undergo` — so is a deed, of changes that nobody of the supervisor makes.
* `State.IsOrderly` — what the order of a run says at every moment; the chains rest on it.

A watcher's reaction to a failure (`State.onFailed`) and the beginning of a restart
(`State.release`) are changes as a whole: what is said of them holds at their end, not within.
-/

namespace Supervision

/-! ### Events nobody acts on -/

/-- It tells of the subscribers, or how a stop ended. -/
def EventKind.isReport : EventKind → Bool
  | .subscriberPanicked | .subscriberOverflow | .allStoppedWithin | .graceExceeded => true
  | _ => false

/-- It tells how a stop ended. -/
def EventKind.endsStop : EventKind → Bool
  | .allStoppedWithin | .graceExceeded => true
  | _ => false

/-- It says that an event was published. -/
def Happening.isPublication : Happening → Bool
  | .published _ => true
  | _ => false

/-- Whoever notes it may do so. What says that something was published, asked for, told to end, or
put to work beside the run itself is never a mere note. -/
def Happening.IsNoteOf (who : Option Task) : Happening → Prop
  | .published _ | .asked _ _ | .cancelled _ | .aborted _ => False
  | .started (.cycle _) | .started (.restart _) | .started (.confirmation _) => False
  | .started _ | .noted _ _ => True
  | .ended t | .broke t _ | .sawReady t _ => who = some t
  | .called i _ | .returned i _ _ | .flinched i _ _ => who = some (.cycle i)
  | .relayed _ | .missed _ _ => who = some .relay
  | .stopped _ => who = some .host

theorem Happening.IsNoteOf.quiet {who : Option Task} {h : Happening} (own : h.IsNoteOf who) :
    h.isPublication = false := by
  cases h with
  | published e => exact own.elim
  | _ => rfl

namespace State

/-! ### Closed forms -/

/-- Publishing events adds them to the bus and to the chronicle, and does nothing else. -/
theorem publishAll_eq (events : List Event) (s : State) :
    s.publishAll events = { s with
      ensemble := s.ensemble.publish events
      chronicle := s.chronicle
        ++ (events.map fun e ↦ (⟨s.now, .published e⟩ : Entry)).toArray } := by
  induction events generalizing s with
  | nil => simp [publishAll, Ensemble.publish]
  | cons e es ih =>
    have h : s.publishAll (e :: es) = (s.publish e).publishAll es := rfl
    rw [h, ih]
    simp [publish, enter, Ensemble.publish]

theorem enterAll_eq (events : List Event) (s : State) :
    s.enterAll events = { s with
      chronicle := s.chronicle
        ++ (events.map fun e ↦ (⟨s.now, .published e⟩ : Entry)).toArray } := by
  induction events generalizing s with
  | nil => simp [enterAll]
  | cons e es ih =>
    have h : s.enterAll (e :: es) = (s.enter (.published e)).enterAll es := rfl
    rw [h, ih]
    simp [enter]

/-- Asking for the shutdown settles its cause and publishes what there is to say. -/
theorem request_eq (c : Cause) (s : State) :
    (s.request c).2 = (({ s with
      ensemble := { s.ensemble with shutdown := (s.ensemble.shutdown.request c).2.1 }
      : State }.publishAll (s.ensemble.shutdown.request c).2.2).enter
        (.asked c (s.ensemble.shutdown.request c).1)) := by
  simp only [request, Ensemble.request, enterAll_eq, publishAll_eq]

/-- A mark that is carried out replaces one lifecycle and publishes what it says; a mark of a place
where nobody is does nothing. -/
theorem mark_cases {place : Nat} {m : Mark} {s s' : State} (h : s.mark place m = .ok s') :
    (s.lifecycle? place = none ∧ s' = s) ∨
      ∃ c c' published, s.lifecycle? place = some c ∧ c.mark m = .ok (c', published) ∧
        s' = ({ s with
          ensemble := { s.ensemble with members := s.ensemble.members.setIfInBounds place c' }
          : State }.publishAll (published.map (·.event))) := by
  unfold mark Ensemble.mark at h
  cases hc : s.ensemble.members[place]? with
  | none =>
    rw [hc] at h
    cases h
    exact .inl ⟨hc, rfl⟩
  | some c =>
    rw [hc] at h
    dsimp only at h
    cases hm : c.mark m with
    | error e => rw [hm] at h; cases h
    | ok r =>
      obtain ⟨c', published⟩ := r
      rw [hm] at h
      cases h
      refine .inr ⟨c, c', published, hc, hm, ?_⟩
      simp only [enterAll_eq, publishAll_eq]

/-- A mark touches nothing but the ensemble and the chronicle. -/
theorem mark_frame {place : Nat} {m : Mark} {s s' : State} (h : s.mark place m = .ok s') :
    s' = { s with ensemble := s'.ensemble, chronicle := s'.chronicle } := by
  rcases mark_cases h with ⟨-, rfl⟩ | ⟨c, c', published, -, -, rfl⟩
  · rfl
  · rw [publishAll_eq]

theorem request_frame (c : Cause) (s : State) :
    (s.request c).2 = { s with
      ensemble := (s.request c).2.ensemble, chronicle := (s.request c).2.chronicle } := by
  rw [request_eq, publishAll_eq]
  rfl

/-! ### What a watcher makes of a failure -/

/-- How often the resource in a place has failed. -/
def failures (s : State) (place : Nat) : Nat :=
  ((s.lifecycle? place).map (·.failures)).getD 0

/-- What can come of the news that a resource has failed, case by case with what is known then. -/
inductive Heed (S : Setup) (resource reason : String) (s : State) : Watched → Prop where
  /-- The shutdown has begun, or nobody has that name. -/
  | ignored (h : s.isRequested = true ∨ S.place? resource = none) :
      Heed S resource reason s ⟨s, none⟩
  /-- The delay of the restart has no value. -/
  | broken {place : Nat} {e : Span.Unreadable} (hp : S.place? resource = some place)
      (here : s.isRequested = false)
      (hd : S.settings.backoff.delay (S.dice s.rolls) (s.account place).attempts = .error e)
      (left : (s.account place).attempts < S.settings.maxRestarts) :
      Heed S resource reason s ⟨s, some e⟩
  /-- Every failure was acted on before. -/
  | old {place : Nat} (hp : S.place? resource = some place) (here : s.isRequested = false)
      (known : s.failures place ≤ (s.account place).handled) :
      Heed S resource reason s ⟨s.setAccount place (s.account place), none⟩
  /-- A restart is on the calendar. -/
  | pending {place : Nat} (hp : S.place? resource = some place) (here : s.isRequested = false)
      (new : (s.account place).handled < s.failures place)
      (busy : (s.account place).pending = true) :
      Heed S resource reason s
        ⟨s.setAccount place { s.account place with handled := s.failures place }, none⟩
  /-- No restarts are left. -/
  | exhausted {place : Nat} (hp : S.place? resource = some place) (here : s.isRequested = false)
      (new : (s.account place).handled < s.failures place)
      (spent : S.settings.maxRestarts ≤ (s.account place).attempts) :
      Heed S resource reason s
        ⟨(((s.setAccount place { s.account place with handled := s.failures place }).publish
            (.exhausted resource (s.account place).attempts reason)).request
          (.escalated resource (exhaustedText (s.account place).attempts reason))).2, none⟩
  /-- A restart is put on the calendar. -/
  | restart {place : Nat} {delay : Span} (hp : S.place? resource = some place)
      (here : s.isRequested = false) (new : (s.account place).handled < s.failures place)
      (idle : (s.account place).pending = false)
      (left : (s.account place).attempts < S.settings.maxRestarts)
      (hd : S.settings.backoff.delay (S.dice s.rolls) (s.account place).attempts = .ok delay) :
      Heed S resource reason s
        ⟨({ s.setAccount place ⟨(s.account place).attempts + 1, true, s.failures place⟩ with
            rolls := s.rolls + 1 }.publish
          (.scheduled resource ((s.account place).attempts + 1) delay reason)).startRestart
            place delay, none⟩

theorem heed_onFailed (S : Setup) (resource reason : String) (s : State) :
    Heed S resource reason s (s.onFailed S resource reason) := by
  unfold onFailed
  cases here : s.isRequested with
  | true => exact .ignored (.inl here)
  | false =>
    simp only [Bool.false_eq_true, if_false]
    cases hp : S.place? resource with
    | none => exact .ignored (.inr hp)
    | some place =>
      dsimp only
      have failures : ((s.lifecycle? place).map (·.failures)).getD 0 = s.failures place := rfl
      unfold judge
      rw [failures]
      unfold Account.onFailure
      by_cases known : s.failures place ≤ (s.account place).handled
      · simp only [known, if_true]
        exact .old hp here known
      · have new : (s.account place).handled < s.failures place := Nat.lt_of_not_le known
        simp only [known, if_false]
        cases busy : (s.account place).pending with
        | true =>
          simp only [if_true]
          have h : Heed S resource reason s _ := .pending hp here new busy
          simpa only [announce, busy] using h
        | false =>
          simp only [Bool.false_eq_true, if_false]
          by_cases spent : S.settings.maxRestarts ≤ (s.account place).attempts
          · simp only [spent, if_true]
            have still : ((s.setAccount place
                { s.account place with handled := s.failures place }).publish
                (.exhausted resource (s.account place).attempts reason)).isRequested = false := here
            have h : Heed S resource reason s _ := .exhausted hp here new spent
            simp only [announce, escalate, busy] at still h ⊢
            simpa only [still, Bool.false_eq_true, if_false] using h
          · have left := Nat.lt_of_not_le spent
            simp only [spent, if_false]
            cases hd : S.settings.backoff.delay (S.dice s.rolls) (s.account place).attempts with
            | error e => exact .broken hp here hd left
            | ok delay => exact .restart hp here new busy left hd

/-- What a watcher makes of a failure leaves the cycles and the order of the run alone. -/
theorem onFailed_frame (S : Setup) (resource reason : String) (s : State) :
    (s.onFailed S resource reason).state = { s with
      ensemble := (s.onFailed S resource reason).state.ensemble
      members := (s.onFailed S resource reason).state.members
      restarts := (s.onFailed S resource reason).state.restarts
      rolls := (s.onFailed S resource reason).state.rolls
      chronicle := (s.onFailed S resource reason).state.chronicle } := by
  have h := heed_onFailed S resource reason s
  generalize s.onFailed S resource reason = r at h ⊢
  cases h with
  | exhausted hp here new spent =>
    dsimp only
    rw [request_frame]
    rfl
  | _ => rfl

/-! ### The beginning of a restart -/

/-- What can come of a restart whose moment has come, case by case. -/
inductive Release (i place : Nat) (s : State) : State → Prop where
  /-- The shutdown has begun, or there is nothing to end and no cycle may be started. -/
  | abandoned (h : s.isRequested = true ∨ s.stopping = true) :
      Release i place s ((s.setAccount place (s.account place).release).endRestart i)
  /-- The current cycle is told to end. -/
  | joins {m : Member} {c : Nat} (here : s.isRequested = false) (hm : s.members[place]? = some m)
      (hc : m.run = some c) :
      Release i place s
        ((((s.setAccount place (s.account place).release).modifyMember place
          fun m ↦ { m with run := none }).cancelCycle c).setRestart i (.joining c))
  /-- There is no current cycle; the next one is started. -/
  | starts (here : s.isRequested = false) (going : s.stopping = false)
      (hc : ∀ m, s.members[place]? = some m → m.run = none) :
      Release i place s
        (((s.setAccount place (s.account place).release).startCycle place).endRestart i)

theorem release_release (i place : Nat) (s : State) : Release i place s (s.release i place) := by
  unfold release
  dsimp only
  split
  · exact .abandoned (.inl ‹_›)
  · rename_i here
    have here : s.isRequested = false := Bool.eq_false_iff.2 here
    have members : (s.setAccount place (s.account place).release).members[place]?
        = (s.members[place]?).map fun m ↦ { m with account := (s.account place).release } := by
      simp [setAccount, modifyMember, Array.getElem?_modify]
    rw [members]
    cases hm : s.members[place]? with
    | none =>
      simp only [Option.map_none, Option.bind_none, respawn]
      split
      · exact .abandoned (.inr ‹_›)
      · rename_i going
        exact .starts here (Bool.eq_false_iff.2 going) (by simp [hm])
    | some m =>
      simp only [Option.map_some, Option.bind_some]
      cases hc : m.run with
      | none =>
        simp only [respawn]
        split
        · exact .abandoned (.inr ‹_›)
        · rename_i going
          refine .starts here (Bool.eq_false_iff.2 going) fun m' h ↦ ?_
          rw [hm] at h
          cases h
          exact hc
      | some c => exact .joins here hm hc

theorem release_frame (i place : Nat) (s : State) :
    s.release i place = { s with
      members := (s.release i place).members, cycles := (s.release i place).cycles
      restarts := (s.release i place).restarts, chronicle := (s.release i place).chronicle } := by
  have h := release_release i place s
  generalize s.release i place = t at h ⊢
  cases h <;> rfl

theorem respawn_frame (i place : Nat) (s : State) :
    s.respawn i place = { s with
      members := (s.respawn i place).members, cycles := (s.respawn i place).cycles
      restarts := (s.respawn i place).restarts
      chronicle := (s.respawn i place).chronicle } := by
  unfold respawn
  split <;> rfl

/-- A confirmation touches the account of its resource, and says so. -/
theorem confirm_frame (S : Setup) (place : Nat) (s : State) :
    s.confirm S place = { s with
      ensemble := { s.ensemble with bus := (s.confirm S place).ensemble.bus }
      members := (s.confirm S place).members
      chronicle := (s.confirm S place).chronicle } := by
  unfold confirm tellRecovery
  split
  · dsimp only
    split <;> rfl
  · rfl

/-! ### The order of a run -/

/-- A cycle is past its first step and has not ended. -/
def IsUnderWay (s : State) (i : Nat) : Prop :=
  ∃ c, s.cycles[i]? = some c ∧ c.stage ≠ .fresh ∧ c.stage ≠ .finished

/-- Resources are stopped only once no cycle may be started any more, and that only once the
shutdown has begun. -/
structure IsOrderly (s : State) : Prop where
  requested : s.stopping = true → s.isRequested = true
  stopping : ∀ run deadline left, s.host = .stopping run deadline left → s.stopping = true

end State

/-! ### Changes -/

/-- The restart waits for its moment. -/
def RestartStage.isOnCalendar : RestartStage → Bool
  | .fresh _ | .sleeping _ => true
  | _ => false

/-- The moment that the restart waits for has come. -/
def RestartStage.isDue (now : Nat) : RestartStage → Bool
  | .fresh delay => delay.millisUp = 0
  | .sleeping wake => wake ≤ now
  | _ => false

theorem RestartStage.isOnCalendar_of_isDue {now : Nat} {stage : RestartStage}
    (due : stage.isDue now = true) : stage.isOnCalendar = true := by
  cases stage with
  | fresh delay => rfl
  | sleeping wake => rfl
  | joining c => cases due
  | finished => cases due

/-- It starts and stops the relay, or is the relay, or a worker behind it. -/
def Task.isFeeding : Task → Bool
  | .host | .relay | .worker _ => true
  | .watcher _ | .cycle _ | .restart _ | .confirmation _ | .writer | .keeper => false

/-- It offers something to the record store, or looks after it. -/
def Task.isRecording : Task → Bool
  | .host | .worker _ | .writer | .keeper => true
  | .watcher _ | .relay | .cycle _ | .restart _ | .confirmation _ => false

/-- One thing that happens to a supervisor: a task of its own does it, or, with `none`, somebody
outside or time. -/
inductive Change (S : Setup) (admits : Deed → Prop) : Option Task → State → State → Prop where
  /-- The relay, the workers and the record store go on, a signal comes, or none can. -/
  | aside {who : Option Task} {s : State} (relay : Option Relay) (fanout : Fanout)
      (recorder : Option Recorder) (signalled : Bool) (deaf : Option Deafness)
      (own : (relay = s.relay ∧ fanout = s.fanout) ∨ ∃ t, who = some t ∧ t.isFeeding = true)
      (records : recorder = s.recorder ∨ ∃ t, who = some t ∧ t.isRecording = true) :
      Change S admits who s
        { s with
          relay := relay, fanout := fanout, recorder := recorder, signalled := signalled
          deaf := deaf }
  /-- Something is noted that is no publication. -/
  | note {who : Option Task} {s : State} (h : Happening) (own : h.IsNoteOf who) :
      Change S admits who s (s.enter h)
  /-- A task reports; how a stop ended is for the host to say. -/
  | report {t : Task} {s : State} (e : Event) (h : e.kind.isReport = true)
      (own : e.kind.endsStop = true → t = .host) : Change S admits (some t) s (s.publish e)
  /-- Somebody asks for the shutdown. -/
  | request {who : Option Task} {s : State} (c : Cause) : Change S admits who s (s.request c).2
  /-- A resource is marked, by a cycle or from outside. -/
  | mark {who : Option Task} {s s' : State} {place : Nat} {m : Mark}
      (h : s.mark place m = .ok s')
      (own : (∃ i, who = some (.cycle i)) ∨ who = none ∧ admits (.mark place m)) :
      Change S admits who s s'
  /-- A cycle begins. -/
  | begin {i : Nat} {s s' : State} {c : Cycle} (hc : s.cycles[i]? = some c)
      (fresh : c.stage = .fresh) (h : s.mark c.place .starting = .ok s') :
      Change S admits (some (.cycle i)) s (s'.setCycle i (.gated none))
  /-- A cycle ends before it has begun. -/
  | turnAway {i : Nat} {s : State} {c : Cycle} {e : IllegalMove} (hc : s.cycles[i]? = some c)
      (fresh : c.stage = .fresh) (h : s.mark c.place .starting = .error e) :
      Change S admits (some (.cycle i)) s (s.setCycle i .finished)
  /-- A cycle under way moves on or ends. -/
  | move {i : Nat} {s : State} (stage : CycleStage) (h : s.IsUnderWay i) (hs : stage ≠ .fresh) :
      Change S admits (some (.cycle i)) s (s.setCycle i stage)
  /-- A call of a start hook is counted. -/
  | count {i : Nat} {s : State} (place : Nat) :
      Change S admits (some (.cycle i)) s
        (s.modifyMember place fun m ↦ { m with starts := m.starts + 1 })
  /-- The host starts a watcher. -/
  | watch {s : State} (h : s.host = .fresh) :
      Change S admits (some .host) s
        { s with watchers := s.watchers.push { next := s.ensemble.bus.size } }
  /-- The host starts a cycle. -/
  | spawn {s : State} {place : Nat} (h : s.host = .fresh) (hp : place < S.posts.size) :
      Change S admits (some .host) s (s.startCycle place)
  /-- The host tells a cycle to end. -/
  | cancel {s : State} (i : Nat) : Change S admits (some .host) s (s.cancelCycle i)
  /-- The host gives a cycle up. -/
  | abort {s : State} (i : Nat) (h : s.stopping = true) :
      Change S admits (some .host) s (s.abortCycle i)
  /-- The host takes all current cycles, and no cycle may be started any more. -/
  | close {s : State} (h : s.isRequested = true) : Change S admits (some .host) s s.close
  /-- The host moves on. -/
  | advance {s : State} (stage : HostStage) (fresh : stage ≠ .fresh)
      (h : ∀ run deadline left, stage = .stopping run deadline left → s.stopping = true) :
      Change S admits (some .host) s { s with host := stage }
  /-- A watcher moves on. -/
  | turn {i : Nat} {s : State} (w : Watcher) :
      Change S admits (some (.watcher i)) s (s.setWatcher i w)
  /-- A watcher reacts to a failure. -/
  | heed {i : Nat} {s : State} (resource reason : String) :
      Change S admits (some (.watcher i)) s (s.onFailed S resource reason).state
  /-- A watcher begins to wait for a resource to become ready. -/
  | await {i : Nat} {s : State} (place : Nat) :
      Change S admits (some (.watcher i)) s (s.startConfirmation place)
  /-- A restart begins to wait for its moment. -/
  | sleep {i place : Nat} {s : State} {delay : Span}
      (h : s.restarts[i]? = some ⟨place, .fresh delay⟩) :
      Change S admits (some (.restart i)) s
        (s.setRestart i (.sleeping (delay.wakeFrom s.now)))
  /-- The moment of a restart has come, or it is called off. -/
  | release {i place : Nat} {s : State} {stage : RestartStage}
      (h : s.restarts[i]? = some ⟨place, stage⟩) (waits : stage.isOnCalendar = true)
      (due : s.isRequested = true ∨ stage.isDue s.now = true) :
      Change S admits (some (.restart i)) s (s.release i place)
  /-- The cycle that a restart waited for is over. -/
  | respawn {i place c : Nat} {s : State} (h : s.restarts[i]? = some ⟨place, .joining c⟩)
      (gone : s.cycleIsOver c = true) :
      Change S admits (some (.restart i)) s (s.respawn i place)
  /-- A confirmation goes on waiting. -/
  | linger {i : Nat} {s : State} {before : Wait} {c : Confirmation}
      (hc : s.confirmations[i]? = some c)
      (h : (s.ensemble.look s.now before).result? = none)
      (hb : c.stage = .waiting before
        ∨ before = .start s.now S.settings.confirmTimeout [c.place]) :
      Change S admits (some (.confirmation i)) s
        (s.setConfirmation i (.waiting (s.ensemble.look s.now before)))
  /-- A confirmation sees its resource ready. -/
  | confirm {i : Nat} {s : State} {before : Wait} {c : Confirmation}
      (hc : s.confirmations[i]? = some c)
      (h : (s.ensemble.look s.now before).result? = some .ready)
      (hb : c.stage = .waiting before
        ∨ before = .start s.now S.settings.confirmTimeout [c.place]) :
      Change S admits (some (.confirmation i)) s (s.confirm S c.place)
  /-- A confirmation ends. -/
  | leave {i : Nat} {s : State} :
      Change S admits (some (.confirmation i)) s (s.setConfirmation i .finished)
  /-- Somebody outside publishes an event. -/
  | publish {s : State} (e : Event) (h : admits (.publish e)) :
      Change S admits none s (s.publish e)
  /-- Somebody asks for a run. -/
  | call {s : State} (h : admits .call) : Change S admits none s { s with host := .fresh }
  /-- Somebody gives up the run. -/
  | abandon {s : State} (h : admits .abandon) : Change S admits none s { s with host := .absent }
  /-- Time passes. -/
  | pass {s : State} (moment : Nat) (later : s.now < moment) :
      Change S admits none s { s with now := moment }

/-- Changes one after the other, all made by the same. -/
abbrev Changes (S : Setup) (admits : Deed → Prop) (who : Option Task) : State → State → Prop :=
  Relation.ReflTransGen (Change S admits who)

end Supervision
