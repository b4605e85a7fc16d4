import Mathlib.Data.List.Basic
import Supervision.Proofs.Supervisor.Budget

/-!
# The one shutdown that is admitted

Many may ask for the shutdown, and each asks at a moment of its own. The first request is admitted:
its cause stays for good and is told once. Every later one is refused (`Admission`). Whoever would
speak of restarts looks first whether the shutdown has begun: a watcher before it answers a failure,
and a confirmation with the same look with which it sees its resource ready
(`State.isReady_of_look`). So after the news of the shutdown nothing is said of restarts.

* `Change.reserved_or` — whatever happens leaves the shutdown alone, or asks for it once.
* `Reaches.admission` — at every moment, the requests, the cause and what was published agree.
* `Reaches.cause` — the cause stays.
-/

namespace Supervision

/-- The request that an entry tells of, and whether it was admitted. -/
def Entry.asked? (e : Entry) : Option (Cause × Bool) :=
  match e.what with
  | .asked c admitted => some (c, admitted)
  | _ => none

/-! ### What is known of the shutdown -/

/-- The cause of the shutdown, the requests for it and what was published agree. -/
inductive Admission : Option Cause → List (Cause × Bool) → List Event → Prop where
  /-- Nobody has asked for it, and nothing was said of it. -/
  | unasked {events : List Event} (silent : ∀ e ∈ events, e.kind ≠ .shutdownRequested) :
      Admission none [] events
  /-- The first request was admitted and no other. Its cause was told once, and nothing was said of
  restarts from then on. -/
  | begun {c : Cause} {later : List (Cause × Bool)} {before after : List Event}
      (refused : ∀ r ∈ later, r.2 = false)
      (silent : ∀ e ∈ before ++ after, e.kind ≠ .shutdownRequested)
      (isOver : ∀ e ∈ after, e.kind.isRestart = false) :
      Admission (some c) ((c, true) :: later) (before ++ .shutdownRequested c.text :: after)

namespace Admission

variable {cause : Option Cause} {requests : List (Cause × Bool)} {events more : List Event}

/-- What else is said. -/
theorem say (h : Admission cause requests events)
    (silent : ∀ e ∈ more, e.kind ≠ .shutdownRequested)
    (isOver : cause.isSome = true → ∀ e ∈ more, e.kind.isRestart = false) :
    Admission cause requests (events ++ more) := by
  cases h with
  | unasked quiet =>
    refine .unasked fun e he ↦ ?_
    rcases List.mem_append.1 he with he | he
    · exact quiet e he
    · exact silent e he
  | @begun c later before after refused quiet past =>
    rw [List.append_assoc, List.cons_append]
    refine .begun refused (fun e he ↦ ?_) fun e he ↦ ?_
    · rcases List.mem_append.1 (List.append_assoc before after more ▸ he) with he | he
      · exact quiet e he
      · exact silent e he
    · rcases List.mem_append.1 he with he | he
      · exact past e he
      · exact isOver rfl e he

/-- **One more request**: it is admitted if it is the first. -/
theorem ask (h : Admission cause requests events) (c : Cause) :
    Admission ((Shutdown.mk cause).request c).2.1.cause
      (requests ++ [(c, ((Shutdown.mk cause).request c).1)])
      (events ++ ((Shutdown.mk cause).request c).2.2) := by
  cases h with
  | unasked quiet =>
    have first : Admission (some c) [(c, true)] (events ++ .shutdownRequested c.text :: []) :=
      .begun (fun r hr ↦ absurd hr List.not_mem_nil) (by rwa [List.append_nil])
        fun e he ↦ absurd he List.not_mem_nil
    exact first
  | @begun d later before after refused quiet past =>
    have late : Admission (some d) ((d, true) :: (later ++ [(c, false)]))
        (before ++ .shutdownRequested d.text :: after) := by
      refine .begun (fun r hr ↦ ?_) quiet past
      rcases List.mem_append.1 hr with hr | hr
      · exact refused r hr
      · rw [List.mem_singleton.1 hr]
    have same : ((before ++ .shutdownRequested d.text :: after) ++ [])
        = before ++ .shutdownRequested d.text :: after := List.append_nil _
    show Admission (some d) ((d, true) :: (later ++ [(c, false)])) (_ ++ [])
    rw [same]
    exact late

/-- Once the shutdown has begun, the last that was said is not of restarts. -/
theorem isRestart_of_last {c : Cause} {e : Event} (h : Admission (some c) requests (events ++ [e])) :
    e.kind.isRestart = false := by
  generalize said : events ++ [e] = all at h
  cases h with
  | @begun _ later before after refused silent isOver =>
    have last := congrArg List.getLast? said
    rw [List.getLast?_concat, List.getLast?_append_cons] at last
    rcases List.mem_cons.1 (List.mem_of_getLast? last.symm) with rfl | told
    · rfl
    · exact isOver e told

end Admission

/-! ### What leaves the shutdown alone -/

namespace State

variable {S : Setup} {s t u : State}

/-- The cause of the shutdown, once it has begun. -/
def cause (s : State) : Option Cause := s.ensemble.shutdown.cause

/-- The first request tells the cause. -/
theorem cause_request_of_unasked (cause : Cause) (here : s.isRequested = false) :
    (s.request cause).2.cause = some cause := by
  unfold State.cause
  rw [request_eq, publishAll_eq]
  show (s.ensemble.shutdown.request cause).2.1.cause = some cause
  have none_ : s.ensemble.shutdown.cause = none :=
    Option.not_isSome_iff_eq_none.1 (Bool.eq_false_iff.1 here)
  unfold Shutdown.request
  rw [none_]

/-- The requests for the shutdown, each with whether it was admitted. -/
def requests (s : State) : List (Cause × Bool) := s.view Entry.asked?

/-- From one state to another, nobody asks for the shutdown or tells of it; and once it has begun,
nobody speaks of restarts. -/
structure IsReserved (s t : State) : Prop where
  cause : t.cause = s.cause
  requests : t.requests = s.requests
  news : Says (fun e ↦ e.kind ≠ .shutdownRequested ∧
    (s.isRequested = true → e.kind.isRestart = false)) s t

namespace IsReserved

theorem isRequested (h : IsReserved s t) : t.isRequested = s.isRequested := by
  show t.cause.isSome = s.cause.isSome
  rw [h.cause]

theorem of_eq (cause : t.cause = s.cause) (chronicle : t.chronicle = s.chronicle) :
    IsReserved s t where
  cause := cause
  requests := view_of_chronicle chronicle
  news := .of_chronicle chronicle

theorem refl (s : State) : IsReserved s s := .of_eq rfl rfl

theorem trans (h : IsReserved s t) (h' : IsReserved t u) : IsReserved s u where
  cause := h'.cause.trans h.cause
  requests := h'.requests.trans h.requests
  news := h.news.trans <| h'.news.mono fun _ said ↦
    ⟨said.1, fun begun ↦ said.2 (h.isRequested.trans begun)⟩

theorem enter (h : IsReserved s t) {what : Happening} (quiet : what.isPublication = false)
    (unasked : (Entry.mk t.now what).asked? = none) : IsReserved s (t.enter what) where
  cause := h.cause
  requests := by
    have entered := view_enter Entry.asked? what t
    rw [unasked] at entered
    exact (entered.trans (List.append_nil _)).trans h.requests
  news := h.news.enter quiet

theorem publishAll {es : List Event} (h : IsReserved s t)
    (silent : ∀ e ∈ es, e.kind ≠ .shutdownRequested)
    (isOver : s.isRequested = true → ∀ e ∈ es, e.kind.isRestart = false) :
    IsReserved s (t.publishAll es) where
  cause := by
    refine Eq.trans ?_ h.cause
    unfold State.cause
    rw [publishAll_eq]
    rfl
  requests := (view_publishAll (fun _ _ ↦ rfl) es t).trans h.requests
  news := h.news.publishAll fun e he ↦ ⟨silent e he, fun begun ↦ isOver begun e he⟩

theorem publish {e : Event} (h : IsReserved s t) (silent : e.kind ≠ .shutdownRequested)
    (isOver : s.isRequested = true → e.kind.isRestart = false) : IsReserved s (t.publish e) := by
  have said : IsReserved s (t.publishAll [e]) := by
    refine h.publishAll (fun d hd ↦ ?_) fun begun d hd ↦ ?_
    · cases List.mem_singleton.1 hd
      exact silent
    · cases List.mem_singleton.1 hd
      exact isOver begun
  exact said

/-- What a supervisor does not say of itself may be said at any time. -/
theorem publish_of_not_own {e : Event} (h : IsReserved s t) (other : e.kind.isOwn = false) :
    IsReserved s (t.publish e) := by
  obtain ⟨quiet, -, silent⟩ := EventKind.isOwn_eq_false.1 other
  exact h.publish silent fun _ ↦ quiet

end IsReserved

theorem isReserved_mark {place : Nat} {m : Mark} (h : s.mark place m = .ok t) :
    IsReserved s t := by
  rcases mark_cases h with ⟨-, rfl⟩ | ⟨c, c', published, -, hm, rfl⟩
  · exact .refl t
  · have other : ∀ e ∈ published.map (·.event), e.kind.isOwn = false := by
      intro e he
      obtain ⟨x, hx, rfl⟩ := List.mem_map.1 he
      exact EventKind.isOwn_of_isNews (Lifecycle.kind_of_mem_mark hm x hx)
    refine .publishAll (.of_eq rfl rfl) (fun e he ↦ ?_) fun _ e he ↦ ?_
    · exact (EventKind.isOwn_eq_false.1 (other e he)).2.2
    · exact (EventKind.isOwn_eq_false.1 (other e he)).1

theorem isReserved_startCycle (place : Nat) (s : State) : IsReserved s (s.startCycle place) := by
  have put : IsReserved s ({ s with cycles := s.cycles.push { place := place } }.modifyMember place
      fun m ↦ { m with run := some s.cycles.size }) := .of_eq rfl rfl
  exact put.enter rfl rfl

theorem isReserved_startRestart (place : Nat) (delay : Span) (s : State) :
    IsReserved s (s.startRestart place delay) := by
  have put : IsReserved s { s with restarts := s.restarts.push ⟨place, .fresh delay⟩ } :=
    .of_eq rfl rfl
  exact put.enter rfl rfl

theorem isReserved_endRestart (i : Nat) (s : State) : IsReserved s (s.endRestart i) := by
  have put : IsReserved s (s.setRestart i .finished) := .of_eq rfl rfl
  exact put.enter rfl rfl

theorem isReserved_respawn (i place : Nat) (s : State) : IsReserved s (s.respawn i place) := by
  unfold respawn
  split
  · exact isReserved_endRestart i s
  · exact (isReserved_startCycle place s).trans (isReserved_endRestart i _)

theorem isReserved_cancelCycle (i : Nat) (s : State) : IsReserved s (s.cancelCycle i) := by
  have put : IsReserved s
      { s with cycles := s.cycles.modify i fun c ↦ { c with cancelled := true } } := .of_eq rfl rfl
  exact put.enter rfl rfl

theorem isReserved_release (i place : Nat) (s : State) : IsReserved s (s.release i place) := by
  have freed : IsReserved s (s.setAccount place (s.account place).release) := .of_eq rfl rfl
  have h := release_release i place s
  generalize s.release i place = t at h ⊢
  cases h with
  | abandoned ha => exact freed.trans (isReserved_endRestart i _)
  | @joins m c here hm hc =>
    have taken : IsReserved s ((s.setAccount place (s.account place).release).modifyMember place
        fun m ↦ { m with run := none }) := .of_eq rfl rfl
    exact (taken.trans (isReserved_cancelCycle c _)).trans (.of_eq rfl rfl)
  | starts here going hc =>
    exact freed.trans ((isReserved_startCycle place _).trans (isReserved_endRestart i _))

/-- Whoever tells of a recovery has looked whether the shutdown has begun. -/
theorem isReserved_confirm {place : Nat} (here : s.isRequested = false) :
    IsReserved s (s.confirm S place) := by
  unfold confirm tellRecovery
  split
  · have set : IsReserved s (s.setAccount place (s.account place).recover) := .of_eq rfl rfl
    dsimp only
    split
    · refine set.publish (by nofun) fun begun ↦ ?_
      rw [here] at begun
      cases begun
    · exact set
  · exact .refl s

/-- What a watcher makes of a failure asks for the shutdown at its end, or not at all. -/
theorem reserved_or_onFailed (S : Setup) (resource reason : String) (s : State) :
    IsReserved s (s.onFailed S resource reason).state ∨
      ∃ u c, IsReserved s u ∧ (s.onFailed S resource reason).state = (u.request c).2 := by
  -- Neither is said once the shutdown has begun.
  have say : ∀ {t : State} {e : Event}, s.isRequested = false → IsReserved s t →
      e.kind ≠ .shutdownRequested → IsReserved s (t.publish e) := by
    intro t e here still silent
    refine still.publish silent fun begun ↦ ?_
    rw [here] at begun
    cases begun
  have h := heed_onFailed S resource reason s
  generalize s.onFailed S resource reason = r at h ⊢
  cases h with
  | ignored _ => exact .inl (.refl s)
  | broken hp here hd left => exact .inl (.refl s)
  | old hp here known => exact .inl (.of_eq rfl rfl)
  | pending hp here new busy => exact .inl (.of_eq rfl rfl)
  | @exhausted place hp here new spent =>
    have set : IsReserved s
        (s.setAccount place { s.account place with handled := s.failures place }) := .of_eq rfl rfl
    exact .inr ⟨_, _, say (e := .exhausted _ _ _) here set nofun, rfl⟩
  | @restart place delay hp here new idle left hd =>
    have set : IsReserved s
        { s.setAccount place ⟨(s.account place).attempts + 1, true, s.failures place⟩ with
          rolls := s.rolls + 1 } := .of_eq rfl rfl
    have said := say (e := .scheduled resource ((s.account place).attempts + 1) delay reason) here
      set nofun
    exact .inl (said.trans (isReserved_startRestart place delay _))

end State

section Run

variable {S : Setup} {admits : Deed → Prop} {who : Option Task} {s s' : State}

/-- **Whatever happens leaves the shutdown alone, or asks for it once.** -/
theorem Change.reserved_or (honest : ∀ e, admits (.publish e) → e.kind.isOwn = false)
    (h : Change S admits who s s') (patient : s.IsPatient) :
    State.IsReserved s s' ∨ ∃ u c, State.IsReserved s u ∧ s' = (u.request c).2 := by
  cases h with
  | request c => exact .inr ⟨s, c, .refl s, rfl⟩
  | heed resource reason => exact State.reserved_or_onFailed S resource reason s
  | note what own =>
    have unasked : (Entry.mk s.now what).asked? = none := by
      cases what with
      | asked c admitted => exact own.elim
      | _ => rfl
    exact .inl (.enter (.refl s) own.quiet unasked)
  | report e report own =>
    refine .inl (.publish (.refl s) (fun kind ↦ ?_) fun _ ↦ ?_)
    · rw [kind] at report
      cases report
    · cases kind : e.kind <;> rw [kind] at report <;> first | rfl | cases report
  | publish e he => exact .inl (.publish_of_not_own (.refl s) (honest e he))
  | mark hm own => exact .inl (State.isReserved_mark hm)
  | begin hc fresh hm => exact .inl ((State.isReserved_mark hm).trans (.of_eq rfl rfl))
  | spawn hh hp => exact .inl (State.isReserved_startCycle _ s)
  | cancel i => exact .inl (State.isReserved_cancelCycle i s)
  | @abort s i hs =>
    have given : State.IsReserved s (s.setCycle i .finished) := .of_eq rfl rfl
    exact .inl (given.enter rfl rfl)
  | @await i s place =>
    have put : State.IsReserved s
        { s with confirmations := s.confirmations.push { place := place } } := .of_eq rfl rfl
    exact .inl (put.enter rfl rfl)
  | release hr waits due => exact .inl (State.isReserved_release _ _ s)
  | respawn hr gone => exact .inl (State.isReserved_respawn _ _ s)
  | @confirm i s before c hc hr hb =>
    have single : before.entries = [(c.place, none)] := by
      rcases hb with waits | rfl
      · exact patient i c before hc waits
      · rfl
    exact .inl (State.isReserved_confirm (State.isReady_of_look single hr).2)
  | _ => exact .inl (.of_eq rfl rfl)

namespace State

/-- The cause of the shutdown, the requests for it and what was published agree. -/
def IsAdmitted (s : State) : Prop := Admission s.cause s.requests s.events

theorem IsAdmitted.of_isReserved (h : s.IsAdmitted) (still : IsReserved s s') :
    s'.IsAdmitted := by
  obtain ⟨more, events, said⟩ := still.news
  unfold IsAdmitted
  rw [still.cause, still.requests, events]
  exact h.say (fun e he ↦ (said e he).1) fun begun e he ↦ (said e he).2 begun

theorem IsAdmitted.request (h : s.IsAdmitted) (c : Cause) : (s.request c).2.IsAdmitted := by
  have requests : (s.request c).2.requests
      = s.requests ++ [(c, (s.ensemble.shutdown.request c).1)] := by
    unfold State.requests
    rw [request_eq, view_enter, view_publishAll (fun _ _ ↦ rfl)]
    rfl
  have events : (s.request c).2.events = s.events ++ (s.ensemble.shutdown.request c).2.2 := by
    rw [request_eq, events_enter_of_quiet rfl, events_publishAll]
    rfl
  have cause : (s.request c).2.cause = (s.ensemble.shutdown.request c).2.1.cause := by
    unfold State.cause
    rw [request_eq, publishAll_eq]
    rfl
  unfold IsAdmitted
  rw [requests, events, cause]
  exact Admission.ask h c

theorem isAdmitted_initial (S : Setup) (bus : Bus) (recorder : Option Recorder) (now : Nat) :
    (State.initial S bus recorder now).IsAdmitted :=
  .unasked fun _ he ↦ absurd he List.not_mem_nil

end State

theorem Change.isAdmitted (honest : ∀ e, admits (.publish e) → e.kind.isOwn = false)
    (h : Change S admits who s s') (patient : s.IsPatient) (ha : s.IsAdmitted) :
    s'.IsAdmitted := by
  rcases h.reserved_or honest patient with still | ⟨u, c, still, rfl⟩
  · exact ha.of_isReserved still
  · exact (ha.of_isReserved still).request c

/-- The cause of the shutdown stays. -/
theorem Change.cause (h : Change S admits who s s') {c : Cause} (hc : s.cause = some c) :
    s'.cause = some c := by
  have asked : ∀ (d : Cause) {t : State}, t.cause = some c → (t.request d).2.cause = some c := by
    intro d t ht
    unfold State.cause at ht ⊢
    rw [State.request_eq, State.publishAll_eq]
    exact Shutdown.cause_request ht
  cases h with
  | request d => exact asked d hc
  | mark hm own => exact (State.isReserved_mark hm).cause.trans hc
  | begin hb fresh hm => exact (State.isReserved_mark hm).cause.trans hc
  | @heed i s resource reason =>
    rcases State.reserved_or_onFailed S resource reason s with still | ⟨u, d, still, e⟩
    · exact still.cause.trans hc
    · rw [e]
      exact asked d (still.cause.trans hc)
  | release hr waits due => exact (State.isReserved_release _ _ s).cause.trans hc
  | respawn hr gone => exact (State.isReserved_respawn _ _ s).cause.trans hc
  | confirm hb hr hw => unfold State.cause at hc ⊢; rw [State.confirm_frame]; exact hc
  | _ => exact hc

/-- **The requests for the shutdown, its cause and what was published agree** at every moment of
every run, as long as nobody else speaks in the name of the supervisor. -/
theorem Reaches.admission {bus : Bus} {recorder : Option Recorder} {now : Nat}
    (honest : ∀ e, admits (.publish e) → e.kind.isOwn = false)
    (run : Reaches S admits (State.initial S bus recorder now) s) :
    Admission s.cause s.requests s.events :=
  (run.keeps_changes (P := fun s ↦ s.IsPatient ∧ s.IsAdmitted)
    (fun _ hP change ↦ ⟨change.isPatient hP.1, change.isAdmitted honest hP.1 hP.2⟩)
    (State.isOrderly_initial S bus recorder now)
    ⟨by nofun, State.isAdmitted_initial S bus recorder now⟩).2.2

/-- **The cause of the shutdown stays for good.** -/
theorem Reaches.cause (h : Reaches S admits s s') (ho : s.IsOrderly) {c : Cause}
    (hc : s.cause = some c) : s'.cause = some c :=
  (h.keeps_changes (P := fun s ↦ s.cause = some c) (fun _ ht change ↦ change.cause ht) ho hc).2

end Run

end Supervision
