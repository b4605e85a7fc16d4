import Supervision.Proofs.Supervisor.Balance

/-!
# Who looks after a cycle

As long as cycles may be started, every cycle that has not ended is looked after: it is the current
one of its resource, or the restart that took it waits for its end (`State.IsInCustody`). A resource
with a restart that waits has no current cycle, and no second restart that waits. All of this ends
with the first restart that finds no current cycle because another one has taken it and waits
(`State.Bypasses`): it starts the next cycle without waiting for anything.

* `Change.isInCustody` — every other change keeps the custody.
* `State.bypasses_of_isAboutToStart` — in custody, nobody else starts a cycle beside one that has
  not ended.
* `Reaches.keeps_unless` — what is kept except by some restarts holds until the first of them.
-/

namespace Supervision

namespace State

/-- Cycle `i` is of the resource in place `p` and has not ended. -/
def IsGoing (p i : Nat) (s : State) : Prop :=
  ∃ c : Cycle, s.cycles[i]? = some c ∧ c.place = p ∧ c.stage ≠ .finished

/-- The moment of restart `j` has come, and it finds no current cycle to wait for, while another
restart of the same resource waits for the one that it took. -/
structure Bypasses (j p : Nat) (s : State) : Prop where
  starts : s.IsAboutToStart j p
  early : ∃ stage, s.restarts[j]? = some ⟨p, stage⟩ ∧ stage.isOnCalendar = true
  other : s.IsJoined p

/-- Every cycle of the resource in place `p` is looked after, and by one only. -/
structure IsInCustody (p : Nat) (s : State) : Prop where
  held : ∀ i, s.IsGoing p i →
    s.run? p = some i ∨ ∃ j : Nat, s.restarts[j]? = some ⟨p, .joining i⟩
  free : ∀ j c : Nat, s.restarts[j]? = some ⟨p, .joining c⟩ → s.run? p = none
  only : ∀ j k c d : Nat, s.restarts[j]? = some ⟨p, .joining c⟩ →
    s.restarts[k]? = some ⟨p, .joining d⟩ → j = k

/-- Every restart that waits for a cycle waits for one of its own resource. -/
def IsLinked (s : State) : Prop :=
  ∀ j p i : Nat, s.restarts[j]? = some ⟨p, .joining i⟩ →
    ∃ c : Cycle, s.cycles[i]? = some c ∧ c.place = p

theorem isLinked_initial (S : Setup) (bus : Bus) (recorder : Option Recorder) (now : Nat) :
    (State.initial S bus recorder now).IsLinked := fun _ _ _ hr ↦
  absurd (Array.mem_of_getElem? hr) (Array.not_mem_empty _)

/-- A run is asked for, and nothing was started before. -/
structure IsFirstRun (s : State) : Prop where
  asked : s.host = .fresh
  cycles : s.cycles = #[]
  restarts : s.restarts = #[]

/-- Every cycle is the current one of its resource, and nothing is to be restarted. -/
structure IsAtStart (s : State) : Prop where
  current : ∀ (i : Nat) (c : Cycle), s.cycles[i]? = some c → s.run? c.place = some i
  calm : s.restarts = #[]

variable {S : Setup} {s : State} {p i j c : Nat}

theorem IsGoing.not_over (h : s.IsGoing p i) : s.cycleIsOver i ≠ true := by
  obtain ⟨c, hc, -, going⟩ := h
  exact fun gone ↦ going ((cycleIsOver_iff_of_some hc).1 gone)

/-- **In custody, only a restart that bypasses another starts a cycle beside one that has not
ended.** -/
theorem bypasses_of_isAboutToStart (h : s.IsInCustody p) (starts : s.IsAboutToStart j p)
    (beside : s.IsGoing p i) : s.Bypasses j p := by
  cases starts with
  | @due stage hr due here going free =>
    refine ⟨.due hr due here going free, ⟨stage, hr, RestartStage.isOnCalendar_of_isDue due⟩, ?_⟩
    rcases h.held i beside with current | ⟨k, joined⟩
    · rw [free] at current
      cases current
    · exact ⟨k, i, joined⟩
  | joined hr gone going =>
    rcases h.held i beside with current | ⟨k, joined⟩
    · rw [h.free j _ hr] at current
      cases current
    · have same := h.only k j _ _ joined hr
      subst same
      rw [hr] at joined
      cases joined
      exact absurd gone beside.not_over

theorem restart_respawn {q : Nat} {r : Restart} (hr : s.restarts[j]? = some r) :
    (s.respawn j q).restarts[j]? = some { r with stage := .finished } := by
  unfold respawn
  split
  · exact getElem?_endRestart_self hr
  · exact getElem?_endRestart_self (s := s.startCycle q) hr

/-- A restart whose moment has come waits for the current cycle of its resource, or has ended. -/
theorem restart_release {stage : RestartStage} (hr : s.restarts[j]? = some ⟨p, stage⟩) :
    (s.release j p).restarts[j]? = some ⟨p, .finished⟩ ∨
      ∃ c, s.run? p = some c ∧ (s.release j p).run? p = none ∧
        (s.release j p).restarts[j]? = some ⟨p, .joining c⟩ := by
  have h := release_release j p s
  generalize s.release j p = t at h ⊢
  cases h with
  | abandoned ha => exact .inl (getElem?_endRestart_self (s := s.setAccount p _) hr)
  | @joins m c here hm hc =>
    refine .inr ⟨c, ?_, ?_, getElem?_setRestart_self (s := State.cancelCycle c _) _ hr⟩
    · unfold run?
      rw [hm]
      exact hc
    · rw [run?_setRestart, run?_cancelCycle, run?_takeRun]
  | starts here going hc =>
    exact .inl (getElem?_endRestart_self (s := (s.setAccount p _).startCycle p) hr)

end State

namespace Change

variable {S : Setup} {admits : Deed → Prop} {who : Option Task} {s s' : State} {p i j c : Nat}

/-! ### Restarts that wait for a cycle -/

/-- A restart waits for its cycle until that is over. -/
theorem joining_after (h : Change S admits who s s')
    (hr : s.restarts[j]? = some ⟨p, .joining c⟩) :
    s'.restarts[j]? = some ⟨p, .joining c⟩ ∨
      s.cycleIsOver c = true ∧ s'.restarts[j]? = some ⟨p, .finished⟩ := by
  rcases h.restart_stays hr with stays | rfl
  · exact .inl stays
  · rcases h.of_restart hr with ⟨e, -⟩ | ⟨wake, waits, -⟩ | ⟨waits, -⟩ | ⟨d, joins, gone, rfl⟩
    · exact .inl (e ▸ hr)
    · cases waits
    · cases waits
    · cases joins
      exact .inr ⟨gone, State.restart_respawn hr⟩

/-- A restart that waits for a cycle did so before, or has just taken the current one. -/
theorem joining_before (h : Change S admits who s s')
    (hr : s'.restarts[j]? = some ⟨p, .joining c⟩) :
    s.restarts[j]? = some ⟨p, .joining c⟩ ∨
      who = some (.restart j) ∧ s.run? p = some c ∧ s'.run? p = none := by
  rcases h.restarts with e | ⟨i, place, delay, -, -, e, -⟩ | ⟨i, stage, hw, e⟩
  · exact .inl (e ▸ hr)
  · rw [e] at hr
    rcases State.startRestart_cases hr with hb | ⟨-, other⟩
    · exact .inl hb
    · cases other
  · rw [e] at hr
    rcases State.setRestart_cases hr with ⟨-, hb⟩ | ⟨rfl, ⟨q, before⟩, hb, same⟩
    · exact .inl hb
    · cases same
      rw [← e] at hr
      subst hw
      rcases h.of_restart hb with ⟨e, -⟩ | ⟨wake, -, rfl⟩ | ⟨-, rfl⟩ | ⟨d, -, -, rfl⟩
      · exact .inl (e ▸ hr)
      · rw [State.getElem?_setRestart_self _ hb] at hr
        cases hr
      · rcases State.restart_release hb with ended | ⟨d, current, taken, joins⟩
        · rw [ended] at hr
          cases hr
        · rw [joins] at hr
          cases hr
          exact .inr ⟨rfl, current, taken⟩
      · rw [State.restart_respawn hb] at hr
        cases hr

/-! ### Custody is kept -/

/-- A cycle that goes on went on before, or has just been started and is current. -/
theorem isGoing_before (h : Change S admits who s s') (hf : s.Fits S)
    (begun : who = some .host → s.host ≠ .fresh) (hg : s'.IsGoing p i) :
    s.IsGoing p i ∨
      i = s.cycles.size ∧ s'.run? p = some i ∧
        ∃ j, who = some (.restart j) ∧ s.IsAboutToStart j p := by
  obtain ⟨c, hc, rfl, going⟩ := hg
  rcases h.cycle_before hc with ⟨b, hb, place⟩ | ⟨new, -, current, ⟨hw, fresh⟩ | ⟨j, hw, starts⟩⟩
  · exact .inl ⟨b, hb, place.symm, h.notFinished_before hb hc going⟩
  · exact absurd fresh (begun hw)
  · obtain ⟨stage, hr⟩ := starts.restart
    exact .inr ⟨new, current (hf.size ▸ hf.restarts j _ hr), j, hw, starts⟩

/-- A cycle that is started in a run is started by a restart of its resource. -/
theorem isAboutToStart_of_push (h : Change S admits who s s') (begun : s.host ≠ .fresh)
    (started : s'.cycles = s.cycles.push { place := p }) :
    ∃ j, who = some (.restart j) ∧ s.IsAboutToStart j p := by
  have hc : s'.cycles[s.cycles.size]? = some { place := p } := by
    rw [started, Array.getElem?_push_size]
  rcases h.cycle_before hc with ⟨b, hb, -⟩ | ⟨-, -, -, ⟨-, fresh⟩ | source⟩
  · have hlt := (Array.getElem?_eq_some_iff.1 hb).1
    exact absurd hlt (Nat.lt_irrefl _)
  · exact absurd fresh begun
  · exact source

/-- A cycle that is started beside a restart that waits bypasses it, or is started by that one. -/
theorem run?_of_joined (h : Change S admits who s s') (hf : s.Fits S) (begun : s.host ≠ .fresh)
    (custody : s.IsInCustody p) (alone : ∀ j, who = some (.restart j) → ¬ s.Bypasses j p)
    (hr : s.restarts[j]? = some ⟨p, .joining c⟩) (waits : s'.restarts[j]? = some ⟨p, .joining c⟩) :
    s'.run? p = none := by
  have free := custody.free j c hr
  cases h.run? hf p with
  | same e => exact e.trans free
  | start started e =>
    obtain ⟨k, hw, starts⟩ := h.isAboutToStart_of_push begun started
    cases starts with
    | @due stage hk due here going _ =>
      exact absurd ⟨.due hk due here going free,
        ⟨stage, hk, RestartStage.isOnCalendar_of_isDue due⟩, ⟨j, c, hr⟩⟩ (alone k hw)
    | joined hk gone going =>
      -- the restart that starts the cycle is the one that waits, and its wait is over
      have same := custody.only k j _ _ hk hr
      subst same
      subst hw
      rcases h.of_restart hr with ⟨-, size⟩ | ⟨wake, waits, -⟩ | ⟨waits, -⟩ | ⟨d, -, -, rfl⟩
      · rw [started, Array.size_push] at size
        omega
      · cases waits
      · cases waits
      · rw [State.restart_respawn hr] at waits
        cases waits
  | take hr waits hc taken e => exact e
  | close closed e => exact e

/-- **Everything but a bypass keeps the custody**, as long as cycles may be started. -/
theorem isInCustody (h : Change S admits who s s') (hf : s.Fits S) (begun : s.host ≠ .fresh)
    (going : s'.stopping = false) (alone : ∀ j, who = some (.restart j) → ¬ s.Bypasses j p)
    (custody : s.IsInCustody p) : s'.IsInCustody p where
  held i hi := by
    rcases h.isGoing_before hf (fun _ ↦ begun) hi with old | ⟨-, current, -⟩
    · rcases custody.held i old with current | ⟨j, joined⟩
      -- It was current: only another start could push it aside, and that one would bypass it.
      · cases h.run? hf p with
        | same e => exact .inl (e.trans current)
        | start started e =>
          obtain ⟨k, hw, starts⟩ := h.isAboutToStart_of_push begun started
          exact absurd (State.bypasses_of_isAboutToStart custody starts old) (alone k hw)
        | take hr waits hc taken e =>
          rw [current] at hc
          cases hc
          exact .inr ⟨_, taken⟩
        | close closed e =>
          rw [closed] at going
          cases going
      -- A restart waits for it, and goes on to do so until it is over.
      · rcases h.joining_after joined with joined | ⟨gone, -⟩
        · exact .inr ⟨j, joined⟩
        · exact absurd gone old.not_over
    · exact .inl current
  free j c hr := by
    rcases h.joining_before hr with old | ⟨-, -, taken⟩
    · exact h.run?_of_joined hf begun custody alone old hr
    · exact taken
  only j k c d hj hk := by
    -- Whoever has just begun to wait has taken the current cycle, and there is none beside another
    -- that waits.
    rcases h.joining_before hj with oldj | ⟨hwj, currentj, -⟩
    · rcases h.joining_before hk with oldk | ⟨-, currentk, -⟩
      · exact custody.only j k c d oldj oldk
      · rw [custody.free j c oldj] at currentk
        cases currentk
    · rcases h.joining_before hk with oldk | ⟨hwk, -⟩
      · rw [custody.free k d oldk] at currentj
        cases currentj
      · rw [hwj] at hwk
        cases hwk
        rfl

/-- A restart waits for a cycle of its own resource. -/
theorem isLinked (h : Change S admits who s s') (hf : s.Fits S) (linked : s.IsLinked) :
    s'.IsLinked := by
  intro j p i hr
  have before : ∃ c : Cycle, s.cycles[i]? = some c ∧ c.place = p := by
    rcases h.joining_before hr with old | ⟨-, current, -⟩
    · exact linked j p i old
    · exact hf.runs p i current
  obtain ⟨c, hc, rfl⟩ := before
  obtain ⟨c', hc', place, -⟩ := h.cycle_after hc
  exact ⟨c', hc', place⟩

end Change

/-! ### At the beginning of a run -/

namespace State

variable {S : Setup} {s : State} {p : Nat}

theorem IsAtStart.startCycles (places : List Nat) (s : State) (distinct : places.Nodup)
    (here : ∀ p ∈ places, p < s.members.size)
    (new : ∀ (i : Nat) (c : Cycle), s.cycles[i]? = some c → c.place ∉ places) (h : s.IsAtStart) :
    (places.foldl (fun s place ↦ s.startCycle place) s).IsAtStart := by
  induction places generalizing s with
  | nil => exact h
  | cons place rest ih =>
    obtain ⟨once, distinct⟩ := List.nodup_cons.1 distinct
    have size : (s.startCycle place).members.size = s.members.size := Array.size_modify
    refine ih (s.startCycle place) distinct (fun p hp ↦ ?_) (fun i c hc ↦ ?_)
      ⟨fun i c hc ↦ ?_, h.calm⟩
    · rw [size]
      exact here p (List.mem_cons_of_mem _ hp)
    · rcases startCycle_cases hc with old | ⟨-, rfl⟩
      · exact fun hp ↦ new i c old (List.mem_cons_of_mem _ hp)
      · exact once
    · rcases startCycle_cases hc with old | ⟨rfl, rfl⟩
      · have other : c.place ≠ place := by
          rintro rfl
          exact new i c old List.mem_cons_self
        rw [run?_startCycle_of_ne other]
        exact h.current i c old
      · exact run?_startCycle_self (here place List.mem_cons_self)

theorem IsAtStart.congr {t : State} (h : s.IsAtStart) (members : t.members = s.members)
    (cycles : t.cycles = s.cycles) (restarts : t.restarts = s.restarts) : t.IsAtStart where
  current i c hc := by
    rw [run?_of_members members]
    exact h.current i c (cycles ▸ hc)
  calm := restarts.trans h.calm

/-- The first run begins with one cycle of each resource. -/
theorem IsFirstRun.isAtStart (h : s.IsFirstRun) (fits : s.Fits S) : (s.beginRun S).IsAtStart := by
  have none : ∀ (i : Nat) (c : Cycle), s.cycles[i]? ≠ some c := by
    rw [h.cycles]
    nofun
  have here : ∀ p ∈ List.range S.posts.size, p < s.members.size :=
    fun p hp ↦ fits.size ▸ List.mem_range.1 hp
  have start : s.IsAtStart := ⟨fun i c hc ↦ absurd hc (none i c), h.restarts⟩
  unfold beginRun
  dsimp only
  refine IsAtStart.congr (.startCycles (List.range S.posts.size) _ List.nodup_range ?_ ?_ ?_)
    rfl rfl rfl
  · split <;> exact here
  · split <;> exact fun i c hc ↦ absurd hc (none i c)
  · split <;> exact start.congr rfl rfl rfl

theorem IsAtStart.isInCustody (h : s.IsAtStart) : s.IsInCustody p where
  held i hi := by
    obtain ⟨c, hc, rfl, -⟩ := hi
    exact .inl (h.current i c hc)
  free j c hr := by
    rw [h.calm] at hr
    cases hr
  only j k c d hj hk := by
    rw [h.calm] at hj
    cases hj

end State

/-! ### Until the first restart of a kind -/

section Unless

variable {S : Setup} {admits : Deed → Prop} {s s' : State} {P : State → Prop}
  {Bad : Nat → State → Prop}

theorem Change.hasBegun {who : Option Task} (alone : ¬ admits .call)
    (h : Change S admits who s s') (begun : s.host ≠ .fresh) : s'.host ≠ .fresh := by
  rcases h.host with e | ⟨-, fresh, -⟩ | ⟨-, ⟨-, e⟩ | ⟨called, -⟩⟩
  · exact e ▸ begun
  · exact fresh
  · rw [e]
    nofun
  · exact absurd called alone

/-- While nobody asks for another run, a run that has begun has begun. -/
theorem Step.hasBegun (alone : ¬ admits .call) (h : Step S admits s s') (ho : s.IsOrderly)
    (begun : s.host ≠ .fresh) : s'.host ≠ .fresh := by
  obtain ⟨who, hc⟩ := h.changes ho
  exact (hc.keeps (P := fun t ↦ t.host ≠ .fresh) (fun _ hb c ↦ c.hasBegun alone hb) ho begun).2

/-- What every change keeps, but for some restarts, a step keeps, but for a step of one of these. -/
theorem Step.keeps_unless (alone : ¬ admits .call)
    (change : ∀ {who t t'}, t.IsSound S → t.host ≠ .fresh → P t →
      (∀ j, who = some (.restart j) → ¬ Bad j t) → Change S admits who t t' → P t')
    (h : Step S admits s s') (sound : s.IsSound S) (begun : s.host ≠ .fresh) (hP : P s) :
    (∃ j, Bad j s) ∨ P s' := by
  rcases h.turn_or_changes sound.orderly (fun t ↦ ∃ j, t = .restart j) with
    ⟨_, ⟨j, rfl⟩, rfl⟩ | ⟨who, other, hc⟩
  · by_cases bad : Bad j s
    · exact .inl ⟨j, bad⟩
    · have single : _ ∨ Change S admits _ _ _ := State.change_stepRestart j s
      rcases single with e | c
      · rw [show s.step S (.restart j) = s from e]
        exact .inr hP
      · refine .inr (change sound begun hP (fun k e ↦ ?_) c)
        cases e
        exact bad
  · refine .inr (hc.keeps (P := fun t ↦ t.IsSound S ∧ t.host ≠ .fresh ∧ P t) (fun _ hP c ↦ ?_)
      sound.orderly ⟨sound, begun, hP⟩).2.2.2
    exact ⟨c.isSound hP.1, c.hasBegun alone hP.2.1,
      change hP.1 hP.2.1 hP.2.2 (fun j e ↦ absurd e (other _ ⟨j, rfl⟩)) c⟩

/-- **What every change keeps, but for some restarts, holds until the first of these.** -/
theorem Reaches.keeps_unless (alone : ¬ admits .call)
    (change : ∀ {who t t'}, t.IsSound S → t.host ≠ .fresh → P t →
      (∀ j, who = some (.restart j) → ¬ Bad j t) → Change S admits who t t' → P t')
    (h : Reaches S admits s s') (sound : s.IsSound S) (begun : s.host ≠ .fresh) (hP : P s) :
    (∃ t j, Reaches S admits s t ∧ Bad j t ∧ Reaches S admits t s') ∨ P s' := by
  -- That the state is sound and the run has begun is kept in any case, and the steps rest on it.
  suffices s'.IsSound S ∧ s'.host ≠ .fresh ∧
      ((∃ t j, Reaches S admits s t ∧ Bad j t ∧ Reaches S admits t s') ∨ P s') from this.2.2
  induction h with
  | refl => exact ⟨sound, begun, .inr hP⟩
  | step reached last ih =>
    obtain ⟨sound', begun', before⟩ := ih
    refine ⟨last.isSound sound', last.hasBegun alone sound'.orderly begun', ?_⟩
    rcases before with ⟨t, j, ht, bad, later⟩ | hP'
    · exact .inl ⟨t, j, ht, bad, later.step last⟩
    · rcases last.keeps_unless alone change sound' begun' hP' with ⟨j, bad⟩ | kept
      · exact .inl ⟨_, j, reached, bad, .step (.refl _) last⟩
      · exact .inr kept

end Unless

end Supervision
