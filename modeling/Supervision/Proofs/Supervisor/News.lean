import Supervision.Proofs.Supervisor.Admission

/-!
# News of moves

Whoever tells of a move on the bus has made it, unless somebody outside tells of one that nobody has
made: among all changes, only a mark publishes a transition (`Change.tells`). A crashed resource
stays crashed, and so the news of a crash that a resource told of stays true
(`State.IsHonest`).
-/

namespace Supervision

namespace Lifecycle

variable {m : Mark} {c c' : Lifecycle} {published : List Publication}

/-- A mark of a status is a move. -/
theorem mark_eq_move {target : Status} (ht : m.target? = some target) :
    c.mark m = c.move target m.failure? := by
  cases m <;> cases ht <;> rfl

/-- Any other mark sets the readiness, or does nothing. -/
theorem mark_of_target?_eq_none (none_ : m.target? = none) :
    c.mark m = .ok (c, []) ∨ ∃ r, c.mark m = .ok (c.setReadiness r) := by
  cases m with
  | ready =>
    by_cases isReady : c.isReady = true
    · exact .inl (congrArg Except.ok (if_pos isReady))
    · exact .inr ⟨_, congrArg Except.ok (if_neg isReady)⟩
  | notReady reason => exact .inr ⟨_, rfl⟩
  | _ => cases none_

theorem lastFailure_setReadiness (r : Readiness) :
    (c.setReadiness r).1.lastFailure = c.lastFailure := by
  unfold setReadiness
  split <;> rfl

/-- A mark that is none of a status leaves the latest failure. -/
theorem lastFailure_of_mark (h : c.mark m = .ok (c', published)) (none_ : m.target? = none) :
    c'.lastFailure = c.lastFailure := by
  rcases mark_of_target?_eq_none (c := c) none_ with same | ⟨r, same⟩
  · rw [same] at h
    cases h
    rfl
  · have set : (c.setReadiness r).1 = c' := congrArg Prod.fst (Except.ok.inj (same.symm.trans h))
    rw [← set]
    exact lastFailure_setReadiness r

/-- A crashed resource stays as it is, up to its readiness. -/
theorem crashed_of_mark (h : c.mark m = .ok (c', published)) (crashed : c.status = .crashed) :
    c'.status = .crashed ∧ c'.lastFailure = c.lastFailure := by
  rcases mark_eq_ok h with ⟨none_, -, status, -⟩ | ⟨target, -, moves⟩
  · exact ⟨status.trans crashed, lastFailure_of_mark h none_⟩
  · have legal := moves.legal
    rw [crashed] at legal
    cases legal

theorem kind_of_mem_setReadiness_eq {r : Readiness} {x : Publication}
    (h : x ∈ (c.setReadiness r).2) : x.event.kind = .readinessChanged := by
  unfold setReadiness at h
  split at h
  · cases h
  · cases List.mem_singleton.1 h
    rfl

/-- A move tells of itself, and of no other. -/
theorem eq_transition_of_move {target : Status} {failure : Option Failure}
    (h : c.move target failure = .ok (c', published)) {x : Publication} (hx : x ∈ published)
    (kind : x.event.kind = .transition) :
    x.event = .transition ⟨c.name, c.status, target, failure⟩ := by
  unfold move at h
  split at h
  · cases h
    rcases List.mem_append.1 hx with before | last
    · have other : x.event.kind = .readinessChanged := by
        split at before
        · exact kind_of_mem_setReadiness_eq before
        · cases before
      rw [kind] at other
      cases other
    · cases List.mem_singleton.1 last
      rfl
  · cases h

/-- What a mark tells of a move is the move that it makes. -/
theorem eq_transition_of_mark (h : c.mark m = .ok (c', published)) {x : Publication}
    (hx : x ∈ published) (kind : x.event.kind = .transition) :
    ∃ target, m.target? = some target ∧
      x.event = .transition ⟨c.name, c.status, target, m.failure?⟩ := by
  cases ht : m.target? with
  | some target =>
    rw [mark_eq_move ht] at h
    exact ⟨target, rfl, eq_transition_of_move h hx kind⟩
  | none =>
    rcases mark_of_target?_eq_none (c := c) ht with same | ⟨r, same⟩
    · rw [same] at h
      cases h
      cases hx
    · have said : (c.setReadiness r).2 = published :=
        congrArg Prod.snd (Except.ok.inj (same.symm.trans h))
      have other := kind_of_mem_setReadiness_eq (said ▸ hx)
      rw [kind] at other
      cases other

end Lifecycle

namespace State

variable {S : Setup} {s t u : State} {P Q : Event → Prop}

/-! ### What is published -/

/-- From one state to another, all that is published is such. It is on the bus and in the
chronicle. -/
def Tells (P : Event → Prop) (s t : State) : Prop :=
  ∃ more : List Event, t.events = s.events ++ more ∧
    t.ensemble.bus.sent = s.ensemble.bus.sent ++ more.toArray ∧ ∀ e ∈ more, P e

namespace Tells

theorem of_events (events : t.events = s.events)
    (sent : t.ensemble.bus.sent = s.ensemble.bus.sent) : Tells P s t :=
  ⟨[], by rw [events, List.append_nil], by rw [sent, Array.append_empty],
    fun _ he ↦ absurd he List.not_mem_nil⟩

theorem of_eq (chronicle : t.chronicle = s.chronicle)
    (sent : t.ensemble.bus.sent = s.ensemble.bus.sent) : Tells P s t :=
  of_events (events_of_chronicle chronicle) sent

theorem refl (s : State) : Tells P s s := of_eq rfl rfl

theorem trans (h : Tells P s t) (h' : Tells P t u) : Tells P s u := by
  obtain ⟨more, events, sent, such⟩ := h
  obtain ⟨more', events', sent', such'⟩ := h'
  refine ⟨more ++ more', by rw [events', events, List.append_assoc], ?_, fun e he ↦ ?_⟩
  · simp [sent', sent]
  · exact (List.mem_append.1 he).elim (such e) (such' e)

theorem mono (h : Tells P s t) (imp : ∀ e, P e → Q e) : Tells Q s t := by
  obtain ⟨more, events, sent, such⟩ := h
  exact ⟨more, events, sent, fun e he ↦ imp e (such e he)⟩

theorem enter (h : Tells P s t) {what : Happening} (quiet : what.isPublication = false) :
    Tells P s (t.enter what) :=
  h.trans (of_events (events_enter_of_quiet quiet) rfl)

theorem publishAll {es : List Event} (h : Tells P s t) (such : ∀ e ∈ es, P e) :
    Tells P s (t.publishAll es) := by
  refine h.trans ⟨es, events_publishAll es t, ?_, such⟩
  rw [publishAll_eq]
  exact Ensemble.sent_publish es t.ensemble

theorem publish {e : Event} (h : Tells P s t) (such : P e) : Tells P s (t.publish e) := by
  have said : Tells P s (t.publishAll [e]) := h.publishAll fun d hd ↦ by
    cases List.mem_singleton.1 hd
    exact such
  exact said

theorem request (h : Tells P s t) (c : Cause) (such : P (.shutdownRequested c.text)) :
    Tells P s (t.request c).2 := by
  rw [request_eq]
  have set : Tells P s { t with
      ensemble := { t.ensemble with shutdown := (t.ensemble.shutdown.request c).2.1 } } :=
    h.trans (of_eq rfl rfl)
  refine (set.publishAll fun e he ↦ ?_).enter rfl
  unfold Shutdown.request at he
  split at he
  · cases he
  · cases List.mem_singleton.1 he
    exact such

end Tells

/-! ### Small operations -/

theorem tells_startCycle (place : Nat) (s : State) : Tells P s (s.startCycle place) := by
  have put : Tells P s ({ s with cycles := s.cycles.push { place := place } }.modifyMember place
      fun m ↦ { m with run := some s.cycles.size }) := .of_eq rfl rfl
  exact put.enter rfl

theorem tells_startRestart (place : Nat) (delay : Span) (s : State) :
    Tells P s (s.startRestart place delay) := by
  have put : Tells P s { s with restarts := s.restarts.push ⟨place, .fresh delay⟩ } :=
    .of_eq rfl rfl
  exact put.enter rfl

theorem tells_endRestart (i : Nat) (s : State) : Tells P s (s.endRestart i) := by
  have put : Tells P s (s.setRestart i .finished) := .of_eq rfl rfl
  exact put.enter rfl

theorem tells_respawn (i place : Nat) (s : State) : Tells P s (s.respawn i place) := by
  unfold respawn
  split
  · exact tells_endRestart i s
  · exact (tells_startCycle place s).trans (tells_endRestart i _)

theorem tells_cancelCycle (i : Nat) (s : State) : Tells P s (s.cancelCycle i) := by
  have put : Tells P s
      { s with cycles := s.cycles.modify i fun c ↦ { c with cancelled := true } } := .of_eq rfl rfl
  exact put.enter rfl

theorem tells_release (i place : Nat) (s : State) : Tells P s (s.release i place) := by
  have freed : Tells P s (s.setAccount place (s.account place).release) := .of_eq rfl rfl
  have h := release_release i place s
  generalize s.release i place = t at h ⊢
  cases h with
  | abandoned ha => exact freed.trans (tells_endRestart i _)
  | @joins m c here hm hc =>
    have taken : Tells P s ((s.setAccount place (s.account place).release).modifyMember place
        fun m ↦ { m with run := none }) := .of_eq rfl rfl
    exact (taken.trans (tells_cancelCycle c _)).trans (.of_eq rfl rfl)
  | starts here going hc =>
    exact freed.trans ((tells_startCycle place _).trans (tells_endRestart i _))

/-- A watcher tells of restarts and of the shutdown, never of moves. -/
theorem tells_onFailed (resource reason : String) (s : State) :
    Tells (·.kind ≠ .transition) s (s.onFailed S resource reason).state := by
  have h := heed_onFailed S resource reason s
  generalize s.onFailed S resource reason = r at h ⊢
  cases h with
  | ignored | broken => exact .refl s
  | old | pending => exact .of_eq rfl rfl
  | @exhausted place hp here new spent =>
    have set : Tells (·.kind ≠ .transition) s
        (s.setAccount place { s.account place with handled := s.failures place }) := .of_eq rfl rfl
    have told := set.publish (e := .exhausted resource (s.account place).attempts reason) nofun
    exact told.request _ nofun
  | @restart place delay hp here new idle left hd =>
    have set : Tells (·.kind ≠ .transition) s
        { s.setAccount place ⟨(s.account place).attempts + 1, true, s.failures place⟩ with
          rolls := s.rolls + 1 } := .of_eq rfl rfl
    have told := set.publish
      (e := .scheduled resource ((s.account place).attempts + 1) delay reason) nofun
    exact told.trans (tells_startRestart place delay _)

theorem tells_confirm (place : Nat) (s : State) :
    Tells (·.kind ≠ .transition) s (s.confirm S place) := by
  unfold confirm tellRecovery
  split
  · have set : Tells (·.kind ≠ .transition) s
        (s.setAccount place (s.account place).recover) := .of_eq rfl rfl
    dsimp only
    split
    · exact set.publish nofun
    · exact set
  · exact .refl s

/-! ### Moves -/

/-- From `s` to `t`, the resource in some place was marked, and that is what the event tells. -/
def IsToldBy (e : Event) (s t : State) : Prop :=
  ∃ p m l l' published, s.lifecycle? p = some l ∧ Lifecycle.mark m l = .ok (l', published) ∧
    t.lifecycle? p = some l' ∧ e ∈ published.map (·.event)

theorem tells_mark {place : Nat} {m : Mark} (h : s.mark place m = .ok t) :
    Tells (IsToldBy · s t) s t := by
  rcases mark_cases h with ⟨-, rfl⟩ | ⟨l, l', published, here, marked, rfl⟩
  · exact .refl t
  · refine .publishAll (.of_eq rfl rfl) fun e he ↦
      ⟨place, m, l, l', published, here, marked, ?_, he⟩
    rw [publishAll_eq]
    have inside : place < s.ensemble.members.size := (Array.getElem?_eq_some_iff.1 here).1
    exact Array.getElem?_setIfInBounds_self_of_lt inside

end State

section Changes

variable {S : Setup} {admits : Deed → Prop} {who : Option Task} {s s' : State}

/-- **Who tells of a move has made it**, unless somebody outside tells of it. -/
theorem Change.tells (h : Change S admits who s s') :
    State.Tells (fun e ↦ e.kind = .transition → admits (.publish e) ∨ State.IsToldBy e s s')
      s s' := by
  have quiet : ∀ {t : State}, State.Tells (·.kind ≠ .transition) s t →
      State.Tells (fun e ↦ e.kind = .transition → admits (.publish e) ∨ State.IsToldBy e s s')
        s t := fun told ↦ told.mono fun e other kind ↦ absurd kind other
  cases h with
  | mark hm own => exact (State.tells_mark hm).mono fun e told _ ↦ .inr told
  | begin hc fresh hm =>
    refine ((State.tells_mark hm).mono ?_).trans (.of_eq rfl rfl)
    exact fun e told _ ↦ .inr told
  | publish e he => exact .publish (.refl s) fun _ ↦ .inl he
  | report e report own =>
    refine quiet (.publish (.refl s) fun kind ↦ ?_)
    rw [kind] at report
    cases report
  | request c => exact quiet (.request (.refl s) c nofun)
  | heed resource reason => exact quiet (State.tells_onFailed resource reason s)
  | confirm hc hr hb => exact quiet (State.tells_confirm _ s)
  | note what own => exact .enter (.refl s) own.quiet
  | spawn hh hp => exact State.tells_startCycle _ s
  | cancel i => exact State.tells_cancelCycle i s
  | @abort s i hs => exact .enter (t := s.setCycle i .finished) (.of_eq rfl rfl) rfl
  | @await i s place =>
    exact .enter (t := { s with confirmations := s.confirmations.push { place := place } })
      (.of_eq rfl rfl) rfl
  | release hr waits due => exact State.tells_release _ _ s
  | respawn hr gone => exact State.tells_respawn _ _ s
  | _ => exact .of_eq rfl rfl

end Changes

/-! ### News of a crash -/

namespace State

/-- A resource has crashed as the move says. -/
def HasCrashed (m : Move) (s : State) : Prop :=
  ∃ p l f, s.lifecycle? p = some l ∧ l.name = m.resource ∧ l.status = .crashed ∧
    m.target = .crashed ∧ m.failure = some f ∧ l.lastFailure = some f

/-- Whenever it was said that somebody crashed, somebody has. -/
def IsHonest (s : State) : Prop :=
  ∀ e, (e ∈ s.events ∨ e ∈ s.ensemble.bus.sent) → (Recorder.crash? e).isSome = true →
    ∃ m, e = .transition m ∧ s.HasCrashed m

variable {s t : State} {m : Move}

theorem HasCrashed.crash? (h : s.HasCrashed m) : Recorder.crash? (.transition m) = m.failure := by
  obtain ⟨p, l, f, -, -, -, target, failure, -⟩ := h
  show (if m.target = .crashed then some (m.failure.getD _) else none) = m.failure
  rw [if_pos target, failure]
  rfl

/-- What a resource tells of its crash is true. -/
theorem IsToldBy.hasCrashed {e : Event} (told : IsToldBy e s t)
    (crash : (Recorder.crash? e).isSome = true) : ∃ m, e = .transition m ∧ t.HasCrashed m := by
  obtain ⟨p, m, l, l', published, here, marked, here', mem⟩ := told
  obtain ⟨x, hx, rfl⟩ := List.mem_map.1 mem
  have kind : x.event.kind = .transition := by
    unfold Recorder.crash? at crash
    split at crash
    · assumption
    · cases crash
  obtain ⟨target, ht, same⟩ := Lifecycle.eq_transition_of_mark marked hx kind
  rw [same] at crash
  have crashed : target = .crashed := by
    refine Classical.byContradiction fun other ↦ ?_
    have none_ : Recorder.crash? (.transition ⟨l.name, l.status, target, m.failure?⟩) = none :=
      if_neg other
    rw [none_] at crash
    cases crash
  subst crashed
  refine ⟨_, same, p, l', ?_⟩
  cases m with
  | crashed f =>
    have moves : Lifecycle.MovesTo .crashed (some f) l l' published :=
      Lifecycle.movesTo_of_move marked
    exact ⟨f, here', moves.name, moves.status, rfl, rfl, moves.lastFailure⟩
  | _ => cases ht

end State

section Changes

variable {S : Setup} {admits : Deed → Prop} {who : Option Task} {s s' : State} {m : Move}

/-- A crash is for good. -/
theorem Change.hasCrashed (h : Change S admits who s s') (crashed : s.HasCrashed m) :
    s'.HasCrashed m := by
  obtain ⟨p, l, f, hl, name, status, target, failure, last⟩ := crashed
  have stays : ∃ l', s'.lifecycle? p = some l' ∧ l'.name = l.name ∧ l'.status = .crashed ∧
      l'.lastFailure = l.lastFailure := by
    unfold State.lifecycle?
    rcases h.lifecycles with same | ⟨place, m, c, c', published, hc, marked, members, -⟩
    · exact ⟨l, same ▸ hl, rfl, status, rfl⟩
    · by_cases own : place = p
      · subst own
        cases hl.symm.trans hc
        obtain ⟨status', last'⟩ := Lifecycle.crashed_of_mark marked status
        have inside : place < s.ensemble.members.size := (Array.getElem?_eq_some_iff.1 hl).1
        refine ⟨c', ?_, Lifecycle.name_of_mark marked, status', last'⟩
        rw [members]
        exact Array.getElem?_setIfInBounds_self_of_lt inside
      · refine ⟨l, ?_, rfl, status, rfl⟩
        rw [members, Array.getElem?_setIfInBounds_ne own]
        exact hl
  obtain ⟨l', hl', name', status', last'⟩ := stays
  exact ⟨p, l', f, hl', name'.trans name, status', target, failure, last'.trans last⟩

/-- **It is never said that somebody crashed unless somebody has**, as long as nobody outside says
so. -/
theorem Change.isHonest (unforged : ∀ e, admits (.publish e) → Recorder.crash? e = none)
    (h : Change S admits who s s') (hs : s.IsHonest) : s'.IsHonest := by
  obtain ⟨more, events, sent, such⟩ := h.tells
  intro e mem crash
  have cases_ : (e ∈ s.events ∨ e ∈ s.ensemble.bus.sent) ∨ e ∈ more := by
    simp only [events, sent, List.mem_append, Array.mem_append, List.mem_toArray] at mem
    rcases mem with (old | new) | (old | new)
    · exact .inl (.inl old)
    · exact .inr new
    · exact .inl (.inr old)
    · exact .inr new
  rcases cases_ with old | new
  · obtain ⟨m, same, crashed⟩ := hs e old crash
    exact ⟨m, same, h.hasCrashed crashed⟩
  · have kind : e.kind = .transition := by
      unfold Recorder.crash? at crash
      split at crash
      · assumption
      · cases crash
    rcases such e new kind with forged | told
    · rw [unforged e forged] at crash
      cases crash
    · exact told.hasCrashed crash

/-! ### Requests -/

/-- Whatever happens leaves the shutdown and the requests for it alone, or is one. -/
theorem Change.unasked_or (h : Change S admits who s s') :
    (s'.cause = s.cause ∧ s'.requests = s.requests) ∨
      ∃ (u : State) (c : Cause), u.cause = s.cause ∧ u.requests = s.requests ∧
        s' = (u.request c).2 := by
  have still : ∀ {t : State}, State.IsReserved s t →
      (t.cause = s.cause ∧ t.requests = s.requests) ∨
        ∃ (u : State) (c : Cause), u.cause = s.cause ∧ u.requests = s.requests ∧
          t = (u.request c).2 :=
    fun reserved ↦ .inl ⟨reserved.cause, reserved.requests⟩
  have said (e : Event) (t : State) : (t.publish e).cause = t.cause ∧
      (t.publish e).requests = t.requests :=
    ⟨rfl, State.view_publishAll (fun _ _ ↦ rfl) [e] t⟩
  cases h with
  | request c => exact .inr ⟨s, c, rfl, rfl, rfl⟩
  | heed resource reason =>
    rcases State.reserved_or_onFailed S resource reason s with reserved | ⟨u, c, reserved, same⟩
    · exact still reserved
    · exact .inr ⟨u, c, reserved.cause, reserved.requests, same⟩
  | publish e he => exact .inl (said e s)
  | report e report own => exact .inl (said e s)
  | note what own =>
    have unasked : (Entry.mk s.now what).asked? = none := by
      cases what with
      | asked c admitted => exact own.elim
      | _ => rfl
    exact still (.enter (.refl s) own.quiet unasked)
  | mark hm own => exact still (State.isReserved_mark hm)
  | begin hc fresh hm => exact still ((State.isReserved_mark hm).trans (.of_eq rfl rfl))
  | spawn hh hp => exact still (State.isReserved_startCycle _ s)
  | cancel i => exact still (State.isReserved_cancelCycle i s)
  | @abort s i hs =>
    have given : State.IsReserved s (s.setCycle i .finished) := .of_eq rfl rfl
    exact still (given.enter rfl rfl)
  | @await i s place =>
    have put : State.IsReserved s
        { s with confirmations := s.confirmations.push { place := place } } := .of_eq rfl rfl
    exact still (put.enter rfl rfl)
  | release hr waits due => exact still (State.isReserved_release _ _ s)
  | respawn hr gone => exact still (State.isReserved_respawn _ _ s)
  | @confirm i s before c hc hr hb =>
    unfold State.confirm State.tellRecovery
    split
    · dsimp only
      split
      · exact .inl (said _ _)
      · exact .inl ⟨rfl, rfl⟩
    · exact .inl ⟨rfl, rfl⟩
  | _ => exact still (.of_eq rfl rfl)

/-- Once the shutdown has begun, no request for it is admitted. -/
theorem Change.admitsNone (h : Change S admits who s s') (asked : s.isRequested = true) :
    State.Enters (fun x ↦ ∀ c, x.what ≠ .asked c true) s s' := by
  have refused : ∃ more, s'.requests = s.requests ++ more ∧ ∀ r ∈ more, r.2 = false := by
    rcases h.unasked_or with ⟨-, same⟩ | ⟨u, c, cause, requests, rfl⟩
    · exact ⟨[], by rw [same, List.append_nil], fun _ hr ↦ absurd hr List.not_mem_nil⟩
    · have refused : (u.ensemble.shutdown.request c).1 = false :=
        Bool.eq_false_iff.2 fun admitted ↦ by
          have begun : u.cause.isSome = false := Shutdown.request_fst_iff.1 admitted
          rw [cause] at begun
          exact absurd (asked.symm.trans begun) nofun
      refine ⟨[(c, false)], ?_, fun r hr ↦ by cases List.mem_singleton.1 hr; rfl⟩
      rw [← requests]
      unfold State.requests
      rw [State.request_eq, State.view_enter, State.view_publishAll (fun _ _ ↦ rfl), refused]
      rfl
  obtain ⟨more, requests, refused⟩ := refused
  obtain ⟨entered, chronicle⟩ := h.grows.chronicle
  refine ⟨entered.toList, by rw [chronicle, Array.toArray_toList], fun x hx c what ↦ ?_⟩
  have same : entered.toList.filterMap Entry.asked? = more := by
    have both : s'.requests = s.requests ++ entered.toList.filterMap Entry.asked? := by
      unfold State.requests State.view
      rw [chronicle, Array.toList_append, List.filterMap_append]
    exact List.append_cancel_left (both.symm.trans requests)
  have told : x.asked? = some (c, true) := by
    unfold Entry.asked?
    rw [what]
  have listed : (c, true) ∈ more := same ▸ List.mem_filterMap.2 ⟨x, hx, told⟩
  exact absurd (refused _ listed) nofun

end Changes

end Supervision
