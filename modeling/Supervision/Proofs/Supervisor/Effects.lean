import Supervision.Proofs.Supervisor.Views
import Supervision.Supervisor.Growth

/-!
# A change, one view at a time

A change touches several parts of the state at once. Here each part is looked at by itself: which
changes touch it, and how.

* `Change.lifecycles`, `Change.cycles`, `Change.restarts` — lifecycles change by marks, cycles and
  restarts one by one.
* `Change.run?`, `Change.account` — current cycles and accounts change by what happens to their
  resource.
* `Change.fits`, `Reaches.fits` — members, cycles and restarts are always those of the resources of
  the setup.
-/

namespace Supervision

namespace Change

variable {S : Setup} {admits : Deed → Prop} {who : Option Task} {s s' : State}

/-- The chronicle and the bus only grow. -/
theorem grows (h : Change S admits who s s') : State.Grows s s' := by
  cases h with
  | note h quiet => exact State.grows_enter _ _
  | abort i hs => exact State.grows_abortCycle _ _
  | report e he own => exact State.grows_publish _ _
  | publish e he => exact State.grows_publish _ _
  | request c => exact State.grows_request _ _
  | mark hm own => exact State.grows_mark hm
  | begin hc fresh hm => exact (State.grows_mark hm).trans (State.grows_setCycle _ _ _)
  | spawn hh hp => exact State.grows_startCycle _ _
  | cancel i => exact State.grows_cancelCycle _ _
  | heed resource reason => exact State.grows_onFailed _ _ _ _
  | await place => exact State.grows_startConfirmation _ _
  | release hr waits due => exact State.grows_release _ _ _
  | respawn hr gone => exact State.grows_respawn _ _ _
  | confirm hc hr hb => exact State.grows_confirm _ _ _
  | _ => exact .of_eq rfl rfl

/-- Lifecycles change by marks only, and one by one, by a cycle or from outside; what the mark
publishes is published. -/
theorem lifecycles (h : Change S admits who s s') :
    s'.ensemble.members = s.ensemble.members ∨
      ∃ place m c c' published, s.lifecycle? place = some c ∧ c.mark m = .ok (c', published) ∧
        s'.ensemble.members = s.ensemble.members.setIfInBounds place c' ∧
        s'.ensemble.bus.sent = s.ensemble.bus.sent ++ (published.map (·.event)).toArray ∧
        ((∃ i, who = some (.cycle i)) ∨ who = none ∧ admits (.mark place m)) := by
  have marks : ∀ {place : Nat} {m : Mark} {t : State}, s.mark place m = .ok t →
      ((∃ i, who = some (.cycle i)) ∨ who = none ∧ admits (.mark place m)) →
      t.ensemble.members = s.ensemble.members ∨ ∃ place m c c' published,
        s.lifecycle? place = some c ∧ c.mark m = .ok (c', published) ∧
        t.ensemble.members = s.ensemble.members.setIfInBounds place c' ∧
        t.ensemble.bus.sent = s.ensemble.bus.sent ++ (published.map (·.event)).toArray ∧
        ((∃ i, who = some (.cycle i)) ∨ who = none ∧ admits (.mark place m)) := by
    intro place m t hm own
    rcases State.mark_cases hm with ⟨-, rfl⟩ | ⟨c, c', published, hc, hcm, rfl⟩
    · exact .inl rfl
    · refine .inr ⟨place, m, c, c', published, hc, hcm, ?_⟩
      rw [State.publishAll_eq]
      exact ⟨rfl, Ensemble.sent_publish _ _, own⟩
  cases h with
  | mark hm own => exact marks hm own
  | @begin i s s' c hc fresh hm =>
    have h' := marks hm (.inl ⟨i, rfl⟩)
    exact h'
  | request c => rw [State.request_eq, State.publishAll_eq]; exact .inl rfl
  | @heed i s resource reason =>
    have h := State.heed_onFailed S resource reason s
    generalize s.onFailed S resource reason = r at h ⊢
    cases h with
    | exhausted hp here new spent =>
      dsimp only
      rw [State.request_eq, State.publishAll_eq]
      exact .inl rfl
    | _ => exact .inl rfl
  | release hr waits due => rw [State.release_frame]; exact .inl rfl
  | respawn hr gone => rw [State.respawn_frame]; exact .inl rfl
  | confirm hc hr hb => rw [State.confirm_frame]; exact .inl rfl
  | _ => exact .inl rfl

/-- Cycles are started, move and are told to end one by one. -/
theorem cycles (h : Change S admits who s s') :
    s'.cycles = s.cycles ∨
      (∃ place, s'.cycles = s.cycles.push { place := place } ∧
        (place < s.members.size → s'.run? place = some s.cycles.size) ∧
        ((who = some .host ∧ s.host = .fresh ∧ place < S.posts.size) ∨
          ∃ j, who = some (.restart j) ∧ s.IsAboutToStart j place)) ∨
      (∃ i stage, s'.cycles = (s.setCycle i stage).cycles ∧ stage ≠ .fresh ∧
        ((who = some (.cycle i) ∧ ∀ c, s.cycles[i]? = some c → c.stage ≠ .finished) ∨
          stage = .finished ∧ s.stopping = true ∧ s' = s.abortCycle i)) ∨
      ∃ i, s'.cycles = (s.cancelCycle i).cycles := by
  cases h with
  | mark hm own => exact .inl (State.cycles_of_mark hm)
  | @begin i s s' c hc fresh hm =>
    refine .inr (.inr (.inl ⟨i, .gated none, ?_, by simp, .inl ⟨rfl, fun b hb gone ↦ ?_⟩⟩))
    · have same := State.cycles_of_mark hm
      simp only [State.setCycle, same]
    · rw [hc] at hb
      cases hb
      rw [fresh] at gone
      cases gone
  | @turnAway i s c e hc fresh hm =>
    refine .inr (.inr (.inl ⟨i, .finished, rfl, by simp, .inl ⟨rfl, fun b hb gone ↦ ?_⟩⟩))
    rw [hc] at hb
    cases hb
    rw [fresh] at gone
    cases gone
  | @move i s stage hw hs =>
    obtain ⟨c, hc, -, going⟩ := hw
    refine .inr (.inr (.inl ⟨i, stage, rfl, hs, .inl ⟨rfl, fun b hb gone ↦ going ?_⟩⟩))
    rw [hc] at hb
    cases hb
    exact gone
  | @spawn s place hh hp =>
    exact .inr (.inl ⟨place, rfl, State.run?_startCycle_self, .inl ⟨rfl, hh, hp⟩⟩)
  | cancel i => exact .inr (.inr (.inr ⟨i, rfl⟩))
  | abort i hs => exact .inr (.inr (.inl ⟨i, .finished, rfl, by simp, .inr ⟨rfl, hs, rfl⟩⟩))
  | request c => rw [State.request_frame]; exact .inl rfl
  | heed resource reason => rw [State.onFailed_frame]; exact .inl rfl
  | @release j place s stage hr waits due =>
    have h := State.release_release j place s
    generalize s.release j place = t at h ⊢
    cases h with
    | abandoned ha => exact .inl rfl
    | @joins m c here hm hc => exact .inr (.inr (.inr ⟨c, rfl⟩))
    | starts here going hc =>
      have free : s.run? place = none := by
        unfold State.run?
        cases hm : s.members[place]? with
        | none => rfl
        | some m => exact hc m hm
      refine .inr (.inl ⟨place, rfl, fun hp ↦ ?_,
        .inr ⟨j, rfl, .due hr (due.resolve_left ?_) here going free⟩⟩)
      · refine State.run?_startCycle_self (s := s.setAccount place (s.account place).release) ?_
        simpa [State.setAccount, State.modifyMember] using hp
      · exact Bool.eq_false_iff.1 here
  | @respawn j place c s hr gone =>
    unfold State.respawn
    split
    · exact .inl rfl
    · rename_i going
      exact .inr (.inl ⟨place, rfl, State.run?_startCycle_self,
        .inr ⟨j, rfl, .joined hr gone (Bool.eq_false_iff.2 going)⟩⟩)
  | confirm hc hr hb => rw [State.confirm_frame]; exact .inl rfl
  | _ => exact .inl rfl

/-- A restart is put on the calendar by a watcher, for a failure that nobody has acted on, and moves
by itself. -/
theorem restarts (h : Change S admits who s s') :
    s'.restarts = s.restarts ∨
      (∃ i place delay, who = some (.watcher i) ∧ place < S.posts.size ∧
        s'.restarts = (s.startRestart place delay).restarts ∧
        (s.account place).handled < s.failures place ∧
        s'.members = (s.setAccount place
          ⟨(s.account place).attempts + 1, true, s.failures place⟩).members) ∨
      ∃ j stage, who = some (.restart j) ∧ s'.restarts = (s.setRestart j stage).restarts := by
  cases h with
  | mark hm own => rw [State.mark_frame hm]; exact .inl rfl
  | begin hc fresh hm => rw [State.mark_frame hm]; exact .inl rfl
  | request c => rw [State.request_frame]; exact .inl rfl
  | @heed i s resource reason =>
    have h := State.heed_onFailed S resource reason s
    generalize s.onFailed S resource reason = r at h ⊢
    cases h with
    | exhausted hp here new spent =>
      dsimp only
      rw [State.request_frame]
      exact .inl rfl
    | @restart place delay hp here new idle left hd =>
      exact .inr (.inl ⟨i, place, delay, rfl, Setup.lt_of_place? hp, rfl, new, rfl⟩)
    | _ => exact .inl rfl
  | @sleep j place s delay hr => exact .inr (.inr ⟨j, .sleeping _, rfl, rfl⟩)
  | @release j place s stage hr waits due =>
    have h := State.release_release j place s
    generalize s.release j place = t at h ⊢
    cases h with
    | @joins m c here hm hc => exact .inr (.inr ⟨j, .joining c, rfl, rfl⟩)
    | _ => exact .inr (.inr ⟨j, .finished, rfl, rfl⟩)
  | @respawn j place c s hr gone =>
    refine .inr (.inr ⟨j, .finished, rfl, ?_⟩)
    unfold State.respawn
    split <;> rfl
  | confirm hc hr hb => rw [State.confirm_frame]; exact .inl rfl
  | _ => exact .inl rfl

/-- As many members are kept as ever. -/
theorem size_members (h : Change S admits who s s') : s'.members.size = s.members.size := by
  cases h with
  | mark hm own => rw [State.mark_frame hm]
  | begin hc fresh hm => rw [State.mark_frame hm]; rfl
  | request c => rw [State.request_frame]
  | count place => simp [State.modifyMember]
  | spawn hh hp => simp [State.startCycle, State.modifyMember, State.enter]
  | close hr => simp [State.close]
  | @heed i s resource reason =>
    have h := State.heed_onFailed S resource reason s
    generalize s.onFailed S resource reason = r at h ⊢
    cases h with
    | exhausted hp here new spent =>
      dsimp only
      rw [State.request_frame]
      simp [State.setAccount, State.modifyMember, State.publish, State.enter]
    | _ =>
      simp [State.setAccount, State.modifyMember, State.publish, State.enter, State.startRestart]
  | @release j place s stage hr waits due =>
    have h := State.release_release j place s
    generalize s.release j place = t at h ⊢
    cases h <;>
      simp [State.endRestart, State.setRestart, State.setAccount, State.modifyMember, State.enter,
        State.cancelCycle, State.startCycle]
  | @respawn j place c s hr gone =>
    unfold State.respawn
    split <;>
      simp [State.endRestart, State.setRestart, State.modifyMember, State.enter, State.startCycle]
  | confirm hc hr hb =>
    unfold State.confirm State.tellRecovery
    split
    · dsimp only
      split <;> simp [State.takeCount, State.setAccount, State.modifyMember, State.publish, State.enter]
    · rfl
  | _ => rfl

/-- A resource keeps its name. -/
theorem names (h : Change S admits who s s') (p : Nat) :
    (s'.lifecycle? p).map (·.name) = (s.lifecycle? p).map (·.name) := by
  unfold State.lifecycle?
  rcases h.lifecycles with e | ⟨place, m, c, c', published, hc, hm, e, -⟩
  · rw [e]
  · rw [e, Array.getElem?_setIfInBounds]
    split
    · rename_i hp
      subst hp
      obtain ⟨hlt, -⟩ := Array.getElem?_eq_some_iff.1 hc
      unfold State.lifecycle? at hc
      rw [if_pos hlt, hc]
      simp [Lifecycle.name_of_mark hm]
    · rfl

/-- A cycle was there before, or has just been started by the host at the beginning of a run or by a
restart of its resource. -/
theorem cycle_before (h : Change S admits who s s') {k : Nat} {c : Cycle}
    (hc : s'.cycles[k]? = some c) :
    (∃ b : Cycle, s.cycles[k]? = some b ∧ c.place = b.place) ∨
      k = s.cycles.size ∧ c = { place := c.place } ∧
        (c.place < s.members.size → s'.run? c.place = some k) ∧
        ((who = some .host ∧ s.host = .fresh) ∨
          ∃ j, who = some (.restart j) ∧ s.IsAboutToStart j c.place) := by
  rcases h.cycles with e | ⟨place, e, current, source⟩ | ⟨i, stage, e, hs, -⟩ | ⟨i, e⟩
  · exact .inl ⟨c, e ▸ hc, rfl⟩
  · rw [e, Array.getElem?_push] at hc
    split at hc
    · cases hc
      rename_i hk
      exact .inr ⟨hk, rfl, hk ▸ current, source.imp_left fun ⟨hw, hh, _⟩ ↦ ⟨hw, hh⟩⟩
    · exact .inl ⟨c, hc, rfl⟩
  · rw [e] at hc
    rcases State.setCycle_cases hc with ⟨-, hb⟩ | ⟨rfl, b, hb, rfl⟩
    · exact .inl ⟨c, hb, rfl⟩
    · exact .inl ⟨b, hb, rfl⟩
  · rw [e] at hc
    obtain ⟨b, hb, place, -⟩ := State.cancelCycle_cases hc
    exact .inl ⟨b, hb, place⟩

/-- A cycle goes on as it is, moves by itself until it has ended, or is given up. -/
theorem cycle_after (h : Change S admits who s s') {k : Nat} {c : Cycle}
    (hc : s.cycles[k]? = some c) :
    ∃ c' : Cycle, s'.cycles[k]? = some c' ∧ c'.place = c.place ∧
      (c'.stage = c.stage ∨ c'.stage ≠ .fresh ∧
        ((who = some (.cycle k) ∧ c.stage ≠ .finished) ∨
          c'.stage = .finished ∧ s.stopping = true ∧ s' = s.abortCycle k)) := by
  rcases h.cycles with e | ⟨place, e, -⟩ | ⟨i, stage, e, hs, hw⟩ | ⟨i, e⟩
  · exact ⟨c, e ▸ hc, rfl, .inl rfl⟩
  · obtain ⟨hk, -⟩ := Array.getElem?_eq_some_iff.1 hc
    exact ⟨c, by rw [e, Array.getElem?_push, if_neg (Nat.ne_of_lt hk), hc], rfl, .inl rfl⟩
  · by_cases hk : k = i
    · subst hk
      exact ⟨{ c with stage := stage }, by rw [e, State.getElem?_setCycle_self stage hc], rfl,
        .inr ⟨hs, hw.imp_left fun ⟨hw, going⟩ ↦ ⟨hw, going c hc⟩⟩⟩
    · exact ⟨c, by rw [e, State.getElem?_setCycle_of_ne stage hk, hc], rfl, .inl rfl⟩
  · rw [e, State.getElem?_cancelCycle, hc]
    split
    · exact ⟨_, rfl, rfl, .inl rfl⟩
    · exact ⟨_, rfl, rfl, .inl rfl⟩

/-- Cycles are never forgotten. -/
theorem le_cycles (h : Change S admits who s s') : s.cycles.size ≤ s'.cycles.size := by
  rcases h.cycles with e | ⟨place, e, -⟩ | ⟨i, stage, e, -⟩ | ⟨i, e⟩
  · exact Nat.le_of_eq (by rw [e])
  · rw [e, Array.size_push]
    exact Nat.le_succ _
  · rw [e]
    exact Nat.le_of_eq Array.size_modify.symm
  · rw [e]
    exact Nat.le_of_eq Array.size_modify.symm

/-- A cycle that is over stays so. -/
theorem cycleIsOver (h : Change S admits who s s') {i : Nat} {c : Cycle}
    (hc : s.cycles[i]? = some c) (gone : s.cycleIsOver i = true) : s'.cycleIsOver i = true := by
  have finished := (State.cycleIsOver_iff_of_some hc).1 gone
  obtain ⟨c', hc', -, stays | ⟨-, ⟨-, going⟩ | ⟨ends, -⟩⟩⟩ := h.cycle_after hc
  · exact (State.cycleIsOver_iff_of_some hc').2 (stays.trans finished)
  · exact absurd finished going
  · exact (State.cycleIsOver_iff_of_some hc').2 ends

/-- A cycle that has not ended had not ended before. -/
theorem notFinished_before (h : Change S admits who s s') {i : Nat} {b c : Cycle}
    (hb : s.cycles[i]? = some b) (hc : s'.cycles[i]? = some c) (going : c.stage ≠ .finished) :
    b.stage ≠ .finished := by
  intro finished
  have gone := h.cycleIsOver hb ((State.cycleIsOver_iff_of_some hb).2 finished)
  exact going ((State.cycleIsOver_iff_of_some hc).1 gone)

/-! ### Current cycles -/

/-- What becomes of the current cycle of a place from one state to another. -/
inductive RunStep (s t : State) (p : Nat) : Prop where
  | same (h : t.run? p = s.run? p)
  /-- A cycle was started. -/
  | start (started : t.cycles = s.cycles.push { place := p }) (h : t.run? p = some s.cycles.size)
  /-- A restart has taken it, to wait for its end. -/
  | take {j c : Nat} {stage : RestartStage} (hr : s.restarts[j]? = some ⟨p, stage⟩)
      (waits : stage.isOnCalendar = true) (hc : s.run? p = some c)
      (taken : t.restarts[j]? = some ⟨p, .joining c⟩) (h : t.run? p = none)
  /-- The host has taken all of them. -/
  | close (closed : t.stopping = true) (h : t.run? p = none)

/-- A cycle is started, maybe after something that does not matter here. -/
theorem RunStep.of_startCycle {u t : State} {place p : Nat} (hp : place < u.members.size)
    (runs : u.run? p = s.run? p) (cycles : u.cycles = s.cycles)
    (members : t.members = (u.startCycle place).members)
    (started : t.cycles = (u.startCycle place).cycles) : RunStep s t p := by
  have e := State.run?_of_members members p
  by_cases hq : p = place
  · subst hq
    refine .start (started.trans ?_) (e.trans ((State.run?_startCycle_self hp).trans ?_))
    · rw [← cycles]
      rfl
    · rw [cycles]
  · exact .same (e.trans ((State.run?_startCycle_of_ne hq).trans runs))

/-- The current cycle of a place changes in one of few ways. -/
theorem run? (h : Change S admits who s s') (hf : s.Fits S) (p : Nat) : RunStep s s' p := by
  cases h with
  | mark hm own => exact .same (State.run?_of_members (by rw [State.mark_frame hm]) p)
  | begin hc fresh hm =>
    exact .same (State.run?_of_members (by rw [State.mark_frame hm]; rfl) p)
  | request c => exact .same (State.run?_of_members (by rw [State.request_frame]) p)
  | count place => exact .same (State.run?_modifyMember _ place (by intro; rfl) p)
  | spawn hh hp => exact .of_startCycle (hf.size ▸ hp) rfl rfl rfl rfl
  | close hr => exact .close rfl (State.run?_close p)
  | @heed i s resource reason =>
    have h := State.heed_onFailed S resource reason s
    generalize s.onFailed S resource reason = r at h ⊢
    cases h with
    | ignored h => exact .same rfl
    | broken hp here hd left => exact .same rfl
    | @exhausted place hp here new spent =>
      have same := State.run?_setAccount (s := s) place
        { s.account place with handled := s.failures place } p
      refine .same (.trans ?_ same)
      exact State.run?_of_members (by dsimp only; rw [State.request_frame]; rfl) p
    | _ => exact .same (State.run?_setAccount _ _ p)
  | @release j place s stage hr waits due =>
    have hp : place < s.members.size := hf.size ▸ hf.restarts j _ hr
    have h := State.release_release j place s
    generalize s.release j place = t at h ⊢
    cases h with
    | abandoned ha => exact .same (State.run?_setAccount _ _ p)
    | @joins m c here hm hc =>
      by_cases hq : p = place
      · subst hq
        refine .take hr waits (c := c) ?_ ?_ ?_
        · unfold State.run?
          rw [hm]
          exact hc
        · exact State.getElem?_setRestart_self (s := State.cancelCycle c _) _ hr
        · rw [State.run?_setRestart, State.run?_cancelCycle, State.run?_takeRun]
      · refine .same (.trans ?_ (State.run?_setAccount place (s.account place).release p))
        rw [State.run?_setRestart, State.run?_cancelCycle, State.run?_modifyMember_of_ne _ _ hq]
    | starts here going hc =>
      refine .of_startCycle (u := s.setAccount place (s.account place).release) ?_ ?_ rfl rfl rfl
      · simpa [State.setAccount, State.modifyMember] using hp
      · exact State.run?_setAccount _ _ _
  | @respawn j place c s hr gone =>
    have hp : place < s.members.size := hf.size ▸ hf.restarts j _ hr
    unfold State.respawn
    split
    · exact .same rfl
    · exact .of_startCycle hp rfl rfl rfl rfl
  | confirm hc hr hb =>
    unfold State.confirm State.tellRecovery
    split
    · dsimp only
      split <;> exact .same (State.run?_setAccount _ _ p)
    · exact .same rfl
  | _ => exact .same rfl

/-- Every change leaves what is kept of the resources fitting. -/
theorem fits (h : Change S admits who s s') (hf : s.Fits S) : s'.Fits S where
  size := h.size_members.trans hf.size
  names p := (h.names p).trans (hf.names p)
  cycles k c hc := by
    rcases h.cycles with e | ⟨place, e, -, ⟨-, -, hp⟩ | ⟨j, -, starts⟩⟩ | ⟨i, stage, e, -⟩ | ⟨i, e⟩
    · exact hf.cycles k c (e ▸ hc)
    · rw [e, Array.getElem?_push] at hc
      split at hc
      · cases hc
        exact hp
      · exact hf.cycles k c hc
    · rw [e, Array.getElem?_push] at hc
      split at hc
      · cases hc
        obtain ⟨stage, hr⟩ := starts.restart
        exact hf.restarts j _ hr
      · exact hf.cycles k c hc
    · rw [e] at hc
      rcases State.setCycle_cases hc with ⟨-, hb⟩ | ⟨rfl, b, hb, rfl⟩
      · exact hf.cycles k c hb
      · exact hf.cycles _ b hb
    · rw [e] at hc
      obtain ⟨b, hb, place, -⟩ := State.cancelCycle_cases hc
      exact place ▸ hf.cycles k b hb
  restarts j r hr := by
    rcases h.restarts with e | ⟨i, place, delay, -, hp, e, -⟩ | ⟨i, stage, -, e⟩
    · exact hf.restarts j r (e ▸ hr)
    · rw [e] at hr
      rcases State.startRestart_cases hr with hb | ⟨-, rfl⟩
      · exact hf.restarts j r hb
      · exact hp
    · rw [e] at hr
      rcases State.setRestart_cases hr with ⟨-, hb⟩ | ⟨rfl, b, hb, rfl⟩
      · exact hf.restarts j r hb
      · exact hf.restarts _ b hb
  runs p i hi := by
    have stays : s.run? p = some i → ∃ c : Cycle, s'.cycles[i]? = some c ∧ c.place = p := by
      intro hi
      obtain ⟨c, hc, rfl⟩ := hf.runs p i hi
      obtain ⟨c', hc', place, -⟩ := h.cycle_after hc
      exact ⟨c', hc', place⟩
    cases h.run? hf p with
    | same e => exact stays (e ▸ hi)
    | start started e =>
      rw [e] at hi
      cases hi
      exact ⟨_, by rw [started, Array.getElem?_push_size], rfl⟩
    | take hr waits hc taken e => rw [e] at hi; cases hi
    | close closed e => rw [e] at hi; cases hi

/-- A lifecycle stays as it is, up to its readiness, or makes a legal move, and the news of that is
on the bus. -/
theorem lifecycle (h : Change S admits who s s') {p : Nat} {c' : Lifecycle}
    (hc' : s'.lifecycle? p = some c') :
    ∃ c, s.lifecycle? p = some c ∧ c'.name = c.name ∧
      ((c'.status = c.status ∧ c'.failures = c.failures) ∨
        ∃ target failure, c.status.allows target = true ∧ c'.status = target ∧
          c'.failures = (if target = .failed then c.failures + 1 else c.failures) ∧
          ∃ k, s.ensemble.bus.size ≤ k ∧
            s'.ensemble.bus.sent[k]? = some (.transition ⟨c.name, c.status, target, failure⟩)) := by
  unfold State.lifecycle? at hc' ⊢
  rcases h.lifecycles with e | ⟨place, m, c, c₁, published, hc, hm, e, sent, -⟩
  · exact ⟨c', e ▸ hc', rfl, .inl ⟨rfl, rfl⟩⟩
  · rw [e, Array.getElem?_setIfInBounds] at hc'
    split at hc'
    · rename_i hp
      subst hp
      split at hc'
      · cases hc'
        refine ⟨c, hc, Lifecycle.name_of_mark hm, ?_⟩
        rcases Lifecycle.mark_eq_ok hm with ⟨-, -, status, failures⟩ | ⟨target, -, moves⟩
        · exact .inl ⟨status, failures⟩
        -- What a mark publishes is put at the end of the bus, and the news is part of it.
        · obtain ⟨i, hi, he⟩ := List.getElem_of_mem moves.news
          refine .inr ⟨target, m.failure?, moves.legal, moves.status, moves.failures,
            s.ensemble.bus.size + i, Nat.le_add_right _ _, ?_⟩
          rw [sent]
          unfold Bus.size
          rw [Array.getElem?_append_right (Nat.le_add_right _ _)]
          simp [hi, he]
      · cases hc'
    · exact ⟨c', hc', rfl, .inl ⟨rfl, rfl⟩⟩

/-- Failures are never taken back. -/
theorem failures_mono (h : Change S admits who s s') (p : Nat) : s.failures p ≤ s'.failures p := by
  unfold State.failures State.lifecycle?
  rcases h.lifecycles with e | ⟨place, m, c, c₁, published, hc, hm, e, -⟩
  · exact Nat.le_of_eq (by rw [e])
  · rw [e, Array.getElem?_setIfInBounds]
    split
    · rename_i hp
      subst hp
      obtain ⟨hlt, -⟩ := Array.getElem?_eq_some_iff.1 hc
      unfold State.lifecycle? at hc
      rw [if_pos hlt, hc]
      simp only [Option.map_some, Option.getD_some]
      rcases Lifecycle.mark_eq_ok hm with ⟨-, -, -, failures⟩ | ⟨target, -, moves⟩
      · exact Nat.le_of_eq failures.symm
      · rw [moves.failures]
        split <;> omega
    · exact Nat.le_refl _

/-! ### Accounts -/

/-- What becomes of the account of a place from one state to another. -/
inductive AccountStep (S : Setup) (s t : State) (p : Nat) : Prop where
  | same (h : t.account p = s.account p)
  /-- The moment of a restart has come. -/
  | release {j : Nat} {stage : RestartStage} (hr : s.restarts[j]? = some ⟨p, stage⟩)
      (waits : stage.isOnCalendar = true) (e : t = s.release j p)
      (h : t.account p = (s.account p).release)
  /-- The resource has recovered. -/
  | recover (running : s.ensemble.status? p = some .running)
      (h : t.account p = (s.account p).recover)
  /-- A failure is taken note of: a restart is on the calendar, or the shutdown begins. -/
  | notice (here : s.isRequested = false) (new : (s.account p).handled < s.failures p)
      (why : (s.account p).pending = true ∨
        S.settings.maxRestarts ≤ (s.account p).attempts ∧ t.isRequested = true)
      (h : t.account p = { s.account p with handled := s.failures p })
  /-- A restart is put on the calendar. -/
  | schedule (here : s.isRequested = false)
      (new : (s.account p).handled < s.failures p) (idle : (s.account p).pending = false)
      (left : (s.account p).attempts < S.settings.maxRestarts)
      (entered : ∃ delay, t.restarts[s.restarts.size]? = some ⟨p, .fresh delay⟩)
      (h : t.account p = ⟨(s.account p).attempts + 1, true, s.failures p⟩)

/-- One account is set, and the others stay. -/
theorem AccountStep.of_setAccount {t : State} {place : Nat} {a : Account}
    (hp : place < s.members.size) (ht : ∀ q, t.account q = (s.setAccount place a).account q)
    (h : t.account place = a → AccountStep S s t place) (p : Nat) : AccountStep S s t p := by
  by_cases hq : p = place
  · subst hq
    exact h ((ht p).trans (State.account_setAccount_self a hp))
  · exact .same ((ht p).trans (State.account_setAccount_of_ne a hq))

/-- An account changes in one of few ways. -/
theorem account (h : Change S admits who s s') (hf : s.Fits S) (p : Nat) :
    AccountStep S s s' p := by
  cases h with
  | mark hm own => exact .same (State.account_of_members (by rw [State.mark_frame hm]) p)
  | begin hc fresh hm =>
    exact .same (State.account_of_members (by rw [State.mark_frame hm]; rfl) p)
  | request c => exact .same (State.account_of_members (by rw [State.request_frame]) p)
  | count place => exact .same (State.account_modifyMember _ place (by intro; rfl) p)
  | spawn hh hp => exact .same (State.account_startCycle _ p)
  | close hr => exact .same (State.account_close p)
  | @heed i s resource reason =>
    have h := State.heed_onFailed S resource reason s
    generalize s.onFailed S resource reason = r at h ⊢
    cases h with
    | ignored h => exact .same rfl
    | broken hp here hd left => exact .same rfl
    | old hp here known =>
      exact .of_setAccount (hf.size ▸ Setup.lt_of_place? hp) (by intro; rfl) .same p
    | pending hp here new busy =>
      exact .of_setAccount (hf.size ▸ Setup.lt_of_place? hp) (by intro; rfl)
        (.notice here new (.inl busy)) p
    | exhausted hp here new spent =>
      refine .of_setAccount (hf.size ▸ Setup.lt_of_place? hp) (fun q ↦ ?_)
        (.notice here new (.inr ⟨spent, State.isRequested_request _ _⟩)) p
      exact State.account_of_members (by dsimp only; rw [State.request_frame]; rfl) q
    | restart hp here new idle left hd =>
      refine .of_setAccount (hf.size ▸ Setup.lt_of_place? hp) (by intro; rfl)
        (.schedule here new idle left ?_) p
      exact ⟨_, Array.getElem?_push_size⟩
  | @release j place s stage hr waits due =>
    have hp : place < s.members.size := hf.size ▸ hf.restarts j _ hr
    refine .of_setAccount hp (fun q ↦ ?_) (.release hr waits rfl) p
    have h := State.release_release j place s
    generalize s.release j place = t at h ⊢
    cases h with
    | abandoned ha => rfl
    | joins here hm hc =>
      rw [State.account_setRestart, State.account_cancelCycle,
        State.account_modifyMember _ place (by intro; rfl)]
    | starts here going hc => rw [State.account_endRestart, State.account_startCycle]
  | respawn hr gone =>
    unfold State.respawn
    split
    · exact .same rfl
    · exact .same (State.account_startCycle _ p)
  | @confirm i s before c hc hr hb =>
    unfold State.confirm State.tellRecovery
    split
    · rename_i running
      have hp : c.place < s.members.size := by
        obtain ⟨l, hl, -⟩ := Option.map_eq_some_iff.1 running
        obtain ⟨post, hpost, -⟩ := hf.exists_post hl
        exact hf.size ▸ (Array.getElem?_eq_some_iff.1 hpost).1
      dsimp only
      split <;> exact .of_setAccount hp (by intro; rfl) (.recover running) p
    · exact .same rfl
  | _ => exact .same rfl

/-! ### Watchers -/

/-- A watcher is moved on by nobody else. -/
theorem watcher_stays (h : Change S admits who s s') {i : Nat} (hw : who ≠ some (.watcher i))
    (hi : i < s.watchers.size) : s'.watchers[i]? = s.watchers[i]? := by
  cases h with
  | watch hh => exact Array.getElem?_push_lt hi |>.trans (Array.getElem?_eq_getElem hi).symm
  | @turn k s w =>
    have hk : k ≠ i := fun e ↦ hw (e ▸ rfl)
    unfold State.setWatcher
    dsimp only
    rw [Array.getElem?_setIfInBounds_ne hk]
  | request c => rw [State.request_frame]
  | mark hm own => rw [State.mark_frame hm]
  | begin hc fresh hm => rw [State.mark_frame hm]; rfl
  | heed resource reason => rw [State.onFailed_frame]
  | release hr waits due => rw [State.release_frame]
  | respawn hr gone => rw [State.respawn_frame]
  | confirm hc hr hb => rw [State.confirm_frame]
  | _ => rfl

end Change

theorem Changes.le_cycles {S : Setup} {admits : Deed → Prop} {who : Option Task} {s s' : State}
    (h : Changes S admits who s s') : s.cycles.size ≤ s'.cycles.size := by
  induction h with
  | refl => exact Nat.le_refl _
  | tail _ last ih => exact Nat.le_trans ih last.le_cycles

/-- What is kept of the resources fits the setup at every moment. -/
theorem Reaches.fits {S : Setup} {admits : Deed → Prop} {bus : Bus} {recorder : Option Recorder}
    {now : Nat} {s : State} (h : Reaches S admits (State.initial S bus recorder now) s) :
    s.IsOrderly ∧ s.Fits S :=
  h.keeps_changes (P := State.Fits S) (fun _ hf change ↦ change.fits hf)
    (State.isOrderly_initial S bus recorder now) (State.Fits.initial S bus recorder now)

end Supervision
