import Supervision.Proofs.Supervisor.Effects

/-!
# Accounts, restarts and failures agree

A resource that has failed is mended: a restart of it is on the calendar or waits for the cycle
before, or its next cycle is about to begin (`State.IsMended`). Until then there is a failure that
nobody has acted on. This holds at every moment (`State.IsBalanced`), whoever watches and whoever
meddles, because it is about accounts, restarts and cycles only.

* `Change.isBalanced` — every change keeps the balance.
* `Reaches.isSound` — order, fit and balance are there from the start on.
-/

namespace Supervision

namespace State

/-- A restart of the resource in a place waits for its moment. -/
def IsOnCalendar (p : Nat) (s : State) : Prop :=
  ∃ (j : Nat) (r : Restart), s.restarts[j]? = some r ∧ r.place = p ∧ r.stage.isOnCalendar = true

/-- A restart of the resource in a place waits for the cycle before to be over. -/
def IsJoined (p : Nat) (s : State) : Prop :=
  ∃ j c : Nat, s.restarts[j]? = some ⟨p, .joining c⟩

/-- A cycle of the resource in a place was started and has not begun. -/
def IsComing (p : Nat) (s : State) : Prop :=
  ∃ (i : Nat) (c : Cycle), s.cycles[i]? = some c ∧ c.place = p ∧ c.stage = .fresh

/-- The resource in a place is about to be started again. -/
def IsMended (p : Nat) (s : State) : Prop :=
  ((s.account p).pending = true ∧ s.IsOnCalendar p) ∨ s.IsJoined p ∨ s.IsComing p

/-- No failure was acted on that did not happen, a pending restart is on the calendar, and a failed
resource is about to be started again or has a failure that nobody has acted on, unless the shutdown
has begun. -/
structure IsBalanced (s : State) : Prop where
  handled : ∀ p, (s.account p).handled ≤ s.failures p
  pending : ∀ p, (s.account p).pending = true → s.IsOnCalendar p
  failed : ∀ p c, s.lifecycle? p = some c → c.status = .failed →
    s.isRequested = true ∨ s.IsMended p ∨ (s.account p).handled < s.failures p

variable {S : Setup} {s : State} {p : Nat}

/-! ### The beginning and the end of a restart -/

theorem account_release {j : Nat} (hp : p < s.members.size) :
    ((s.release j p).account p).pending = false := by
  have self : (s.setAccount p (s.account p).release).account p = (s.account p).release :=
    account_setAccount_self _ hp
  have h := release_release j p s
  generalize s.release j p = t at h ⊢
  cases h with
  | abandoned ha => exact congrArg Account.pending self
  | joins here hm hc =>
    exact congrArg Account.pending ((account_modifyMember _ p (by intro; rfl) p).trans self)
  | starts here going hc =>
    exact congrArg Account.pending ((account_startCycle p p).trans self)

/-- When the moment of a restart comes, its resource is about to be started again. -/
theorem isMended_release {j : Nat} {stage : RestartStage} (ho : s.IsOrderly)
    (hr : s.restarts[j]? = some ⟨p, stage⟩) :
    (s.release j p).isRequested = true ∨ (s.release j p).IsMended p := by
  have h := release_release j p s
  generalize s.release j p = t at h ⊢
  cases h with
  | abandoned ha =>
    rcases ha with hq | hs
    · exact .inl hq
    · exact .inl (ho.requested hs)
  | @joins m c here hm hc =>
    refine .inr (.inr (.inl ⟨j, c, ?_⟩))
    exact getElem?_setRestart_self (s := cancelCycle c _) _ hr
  | starts here going hc => exact .inr (.inr (.inr ⟨_, _, getElem?_startCycle_size p, rfl, rfl⟩))

/-- When the cycle that a restart waits for is over, its resource is about to be started again. -/
theorem isMended_respawn (j : Nat) (ho : s.IsOrderly) :
    (s.respawn j p).isRequested = true ∨ (s.respawn j p).IsMended p := by
  unfold respawn
  split
  · exact .inl (ho.requested ‹_›)
  · exact .inr (.inr (.inr ⟨_, _, getElem?_startCycle_size p, rfl, rfl⟩))

end State

/-! ### What is about to happen still is -/

namespace Change

variable {S : Setup} {admits : Deed → Prop} {who : Option Task} {s s' : State} {p : Nat}

/-- A restart stays where it is, unless it is this one that moves. -/
theorem restart_stays (h : Change S admits who s s') {j : Nat} {r : Restart}
    (hr : s.restarts[j]? = some r) : s'.restarts[j]? = some r ∨ who = some (.restart j) := by
  rcases h.restarts with e | ⟨i, place, delay, -, -, e, -⟩ | ⟨i, stage, hw, e⟩
  · exact .inl (e ▸ hr)
  · exact .inl (e ▸ State.getElem?_startRestart_of_some hr)
  · by_cases hj : j = i
    · exact .inr (hj ▸ hw)
    · exact .inl (by rw [e, State.getElem?_setRestart_of_ne _ hj, hr])

/-- A restart that moves waits for its moment a while longer, begins, or ends. -/
theorem of_restart {j : Nat} {r : Restart} (h : Change S admits (some (.restart j)) s s')
    (hr : s.restarts[j]? = some r) :
    (s'.restarts = s.restarts ∧ s'.cycles.size = s.cycles.size) ∨
      (∃ wake, r.stage.isOnCalendar = true ∧ s' = s.setRestart j (.sleeping wake)) ∨
      (r.stage.isOnCalendar = true ∧ s' = s.release j r.place) ∨
      ∃ c, r.stage = .joining c ∧ s.cycleIsOver c = true ∧ s' = s.respawn j r.place := by
  cases h with
  | sleep h =>
    rw [hr] at h
    cases h
    exact .inr (.inl ⟨_, rfl, rfl⟩)
  | release h waits due =>
    rw [hr] at h
    cases h
    exact .inr (.inr (.inl ⟨waits, rfl⟩))
  | respawn h gone =>
    rw [hr] at h
    cases h
    exact .inr (.inr (.inr ⟨_, rfl, gone, rfl⟩))
  | request c => rw [State.request_frame]; exact .inl ⟨rfl, rfl⟩
  | mark hm own => rw [State.mark_frame hm]; exact .inl ⟨rfl, rfl⟩
  | _ => exact .inl ⟨rfl, rfl⟩

/-- A restart stays on the calendar until it begins. -/
theorem isOnCalendar (h : Change S admits who s s') (hp : s.IsOnCalendar p) :
    s'.IsOnCalendar p ∨ ∃ j stage, s.restarts[j]? = some ⟨p, stage⟩ ∧ s' = s.release j p := by
  obtain ⟨j, r, hr, rfl, waits⟩ := hp
  rcases h.restart_stays hr with stays | rfl
  · exact .inl ⟨j, r, stays, rfl, waits⟩
  · rcases h.of_restart hr with ⟨e, -⟩ | ⟨wake, -, rfl⟩ | ⟨-, rfl⟩ | ⟨c, joins, -⟩
    · exact .inl ⟨j, r, e ▸ hr, rfl, waits⟩
    · exact .inl ⟨j, _, State.getElem?_setRestart_self _ hr, rfl, rfl⟩
    · exact .inr ⟨j, r.stage, hr, rfl⟩
    · rw [joins] at waits
      cases waits

/-- A restart waits for the cycle before until that is over. -/
theorem isJoined (h : Change S admits who s s') (hp : s.IsJoined p) :
    s'.IsJoined p ∨ ∃ j, s' = s.respawn j p := by
  obtain ⟨j, c, hr⟩ := hp
  rcases h.restart_stays hr with stays | rfl
  · exact .inl ⟨j, c, stays⟩
  · rcases h.of_restart hr with ⟨e, -⟩ | ⟨wake, waits, -⟩ | ⟨waits, -⟩ | ⟨d, -, -, e⟩
    · exact .inl ⟨j, c, e ▸ hr⟩
    · cases waits
    · cases waits
    · exact .inr ⟨j, e⟩

/-- A cycle that has not begun begins, or is turned away. -/
theorem of_fresh {i : Nat} {c : Cycle} (h : Change S admits (some (.cycle i)) s s')
    (hc : s.cycles[i]? = some c) (fresh : c.stage = .fresh) :
    (∃ c' : Cycle, s'.cycles[i]? = some c' ∧ c'.place = c.place ∧ c'.stage = .fresh) ∨
      (∃ t, s.mark c.place .starting = .ok t ∧ s' = t.setCycle i (.gated none)) ∨
      ∃ e, s.mark c.place .starting = .error e ∧ s' = s.setCycle i .finished := by
  cases h with
  | begin hb _ hm =>
    rw [hc] at hb
    cases hb
    exact .inr (.inl ⟨_, hm, rfl⟩)
  | turnAway hb _ hm =>
    rw [hc] at hb
    cases hb
    exact .inr (.inr ⟨_, hm, rfl⟩)
  | move stage hw hs =>
    obtain ⟨b, hb, begun, -⟩ := hw
    rw [hc] at hb
    cases hb
    exact absurd fresh begun
  | mark hm own => exact .inl ⟨c, by rw [State.cycles_of_mark hm, hc], rfl, fresh⟩
  | request k => rw [State.request_frame]; exact .inl ⟨c, hc, rfl, fresh⟩
  | _ => exact .inl ⟨c, hc, rfl, fresh⟩

/-- A cycle that was started begins, or is turned away, and then its resource has not failed; or the
host gives it up. -/
theorem isComing (h : Change S admits who s s') (hp : s.IsComing p) :
    s'.IsComing p ∨ s.stopping = true ∨ ∀ c, s'.lifecycle? p = some c → c.status ≠ .failed := by
  obtain ⟨i, c, hc, rfl, fresh⟩ := hp
  obtain ⟨c', hc', place, stays | ⟨-, ⟨rfl, -⟩ | ⟨-, hs, -⟩⟩⟩ := h.cycle_after hc
  · exact .inl ⟨i, c', hc', place, stays.trans fresh⟩
  · rcases h.of_fresh hc fresh with ⟨d, hd, hp, hf⟩ | ⟨t, hm, rfl⟩ | ⟨e, hm, rfl⟩
    · exact .inl ⟨i, d, hd, hp, hf⟩
    · refine .inr (.inr fun l hl failed ↦ ?_)
      have starting := State.status_of_mark rfl hm (c := l) hl
      rw [starting] at failed
      cases failed
    · refine .inr (.inr fun l hl failed ↦ ?_)
      have illegal := State.illegal_of_mark hm rfl hl
      rw [failed] at illegal
      cases illegal
  · exact .inr (.inl hs)

/-- What is about to be started again still is, or does not need to be. -/
theorem isMended (h : Change S admits who s s') (ho : s.IsOrderly) (hf : s.Fits S)
    (hm : s.IsMended p) :
    s'.isRequested = true ∨ s'.IsMended p ∨ ∀ c, s'.lifecycle? p = some c → c.status ≠ .failed := by
  -- One case for each way of being mended: each is left for the next only, and the last one when
  -- the resource is started.
  rcases hm with ⟨pending, calendar⟩ | joined | coming
  · rcases h.isOnCalendar calendar with calendar | ⟨j, stage, hr, rfl⟩
    · have mended : (s'.account p).pending = true → s'.IsMended p := fun h ↦ .inl ⟨h, calendar⟩
      cases h.account hf p with
      | same e => exact .inr (.inl (mended (by rw [e]; exact pending)))
      | release hr waits e _ =>
        subst e
        exact (State.isMended_release ho hr).imp_right .inl
      | recover running e => exact .inr (.inl (mended (by rw [e]; exact pending)))
      | notice here new why e => exact .inr (.inl (mended (by rw [e]; exact pending)))
      | schedule here new idle left entered e => exact .inr (.inl (mended (by rw [e])))
    · exact (State.isMended_release ho hr).imp_right .inl
  · rcases h.isJoined joined with joined | ⟨j, rfl⟩
    · exact .inr (.inl (.inr (.inl joined)))
    · exact (State.isMended_respawn j ho).imp_right .inl
  · rcases h.isComing coming with coming | hs | other
    · exact .inr (.inl (.inr (.inr coming)))
    · exact .inl (h.isRequested (ho.requested hs))
    · exact .inr (.inr other)

/-! ### The balance is kept -/

/-- Nobody acts on a failure before it happens. -/
theorem handled_le (h : Change S admits who s s') (hf : s.Fits S)
    (hb : (s.account p).handled ≤ s.failures p) : (s'.account p).handled ≤ s.failures p := by
  cases h.account hf p with
  | same e => rw [e]; exact hb
  | release hr waits _ e => rw [e]; exact hb
  | recover running e => rw [e]; exact hb
  | notice here new why e => exact Nat.le_of_eq (by rw [e])
  | schedule here new idle left entered e => exact Nat.le_of_eq (by rw [e])

theorem pending_isOnCalendar (h : Change S admits who s s') (hf : s.Fits S)
    (hb : (s.account p).pending = true → s.IsOnCalendar p)
    (hp : (s'.account p).pending = true) : s'.IsOnCalendar p := by
  have stays : s.IsOnCalendar p → s'.IsOnCalendar p := by
    intro calendar
    rcases h.isOnCalendar calendar with calendar | ⟨j, stage, hr, rfl⟩
    · exact calendar
    · rw [State.account_release (hf.size ▸ hf.restarts j _ hr)] at hp
      cases hp
  cases h.account hf p with
  | same e => rw [e] at hp; exact stays (hb hp)
  | release hr waits _ e => rw [e] at hp; cases hp
  | recover running e => rw [e] at hp; exact stays (hb hp)
  | notice here new why e => rw [e] at hp; exact stays (hb hp)
  | schedule here new idle left entered e =>
    obtain ⟨delay, entered⟩ := entered
    exact ⟨_, _, entered, rfl, rfl⟩

/-- **Every change keeps the balance.** -/
theorem isBalanced (h : Change S admits who s s') (ho : s.IsOrderly) (hf : s.Fits S)
    (hb : s.IsBalanced) : s'.IsBalanced where
  handled p := Nat.le_trans (h.handled_le hf (hb.handled p)) (h.failures_mono p)
  pending p := h.pending_isOnCalendar hf (hb.pending p)
  failed p c' hc' failed := by
    have acted := h.handled_le hf (hb.handled p)
    obtain ⟨c, hc, -, ⟨status, failures⟩ | ⟨target, _, -, status, failures, -⟩⟩ := h.lifecycle hc'
    -- It had failed before: what was true of it then carries over.
    · have count : s'.failures p = s.failures p := by
        rw [State.failures_eq hc', State.failures_eq hc, failures]
      rcases hb.failed p c hc (status ▸ failed) with requested | mended | new
      · exact .inl (h.isRequested requested)
      · rcases h.isMended ho hf mended with requested | mended | other
        · exact .inl requested
        · exact .inr (.inl mended)
        · exact absurd failed (other c' hc')
      · rw [count]
        have mended : (s'.account p).pending = true → s'.IsMended p :=
          fun hp ↦ .inl ⟨hp, h.pending_isOnCalendar hf (hb.pending p) hp⟩
        cases h.account hf p with
        | same e => rw [e]; exact .inr (.inr new)
        | release hr waits _ e => rw [e]; exact .inr (.inr new)
        | recover running e => rw [e]; exact .inr (.inr new)
        | notice here _ why e =>
          rcases why with pending | ⟨-, requested⟩
          · exact .inr (.inl (mended (by rw [e]; exact pending)))
          · exact .inl requested
        | schedule here _ idle left entered e => exact .inr (.inl (mended (by rw [e])))
    -- It has just failed, so there is one failure more than anybody can have acted on.
    · rw [State.failures_eq hc', failures, if_pos (status ▸ failed), ← State.failures_eq hc]
      exact .inr (.inr (Nat.lt_succ_of_le acted))

end Change

namespace State

theorem account_initial (S : Setup) (bus : Bus) (recorder : Option Recorder) (now p : Nat) :
    (State.initial S bus recorder now).account p = {} := by
  simp only [account, State.initial, Array.getElem?_replicate]
  split <;> rfl

theorem lifecycle?_initial {S : Setup} {bus : Bus} {recorder : Option Recorder} {now p : Nat}
    {c : Lifecycle} (h : (State.initial S bus recorder now).lifecycle? p = some c) :
    ∃ name, c = .new name := by
  simp only [lifecycle?, State.initial, Ensemble.ofNames, List.getElem?_toArray,
    List.getElem?_map, Option.map_eq_some_iff] at h
  obtain ⟨name, -, rfl⟩ := h
  exact ⟨name, rfl⟩

theorem isBalanced_initial (S : Setup) (bus : Bus) (recorder : Option Recorder) (now : Nat) :
    (State.initial S bus recorder now).IsBalanced where
  handled p := by
    rw [account_initial]
    exact Nat.zero_le _
  pending p hp := by
    rw [account_initial] at hp
    cases hp
  failed p c hc failed := by
    obtain ⟨name, rfl⟩ := lifecycle?_initial hc
    cases failed

end State

/-- Whatever holds of a supervisor at every moment. -/
structure State.IsSound (S : Setup) (s : State) : Prop where
  orderly : s.IsOrderly
  fits : s.Fits S
  balanced : s.IsBalanced

theorem State.isSound_initial (S : Setup) (bus : Bus) (recorder : Option Recorder) (now : Nat) :
    (State.initial S bus recorder now).IsSound S :=
  ⟨isOrderly_initial S bus recorder now, .initial S bus recorder now,
    isBalanced_initial S bus recorder now⟩

theorem Change.isSound {S : Setup} {admits : Deed → Prop} {who : Option Task} {s s' : State}
    (h : Change S admits who s s') (hs : s.IsSound S) : s'.IsSound S :=
  ⟨h.isOrderly hs.orderly, h.fits hs.fits, h.isBalanced hs.orderly hs.fits hs.balanced⟩

theorem Step.isSound {S : Setup} {admits : Deed → Prop} {s s' : State} (h : Step S admits s s')
    (hs : s.IsSound S) : s'.IsSound S := by
  obtain ⟨who, hc⟩ := h.changes hs.orderly
  exact (hc.keeps (fun _ hs change ↦ change.isSound hs) hs.orderly hs).2

/-- **Order, fit and balance are there from the start on.** -/
theorem Reaches.isSound {S : Setup} {admits : Deed → Prop} {bus : Bus} {recorder : Option Recorder}
    {now : Nat} {s : State} (h : Reaches S admits (State.initial S bus recorder now) s) :
    s.IsSound S :=
  h.keeps (fun hs step ↦ step.isSound hs) (State.isSound_initial S bus recorder now)

end Supervision
