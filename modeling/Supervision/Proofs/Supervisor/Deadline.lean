import Supervision.Proofs.Supervisor.Gating

/-!
# How long a cycle waits

A cycle that has begun looks at what its resource depends on before any time passes, and then waits
until its deadline at most: no time passes beyond it, and once it has come the wait is over at the
next look. So a cycle that waits began no longer ago than the timeout allows
(`State.IsOnTime`).

* `Step.isOnTime` — every step keeps the time.
* `Changes.cycle_of_other` — others leave a cycle where it is, or the host has given it up.
-/

namespace Supervision

/-- A cycle that began at a moment stands where it may at another: its first look comes at once, and
it waits until the deadline at most. -/
def CycleStage.IsOnTime (began : Nat) (timeout : Span) (now : Nat) : CycleStage → Prop
  | .fresh => False
  | .gated none => now = began
  | .gated (some w) => w.deadline = began + timeout.millisUp ∧ now ≤ w.deadline
  | .inside _ _ _ _ | .finished => True

theorem CycleStage.IsOnTime.le {began now : Nat} {timeout : Span} {wait? : Option Wait}
    (h : (CycleStage.gated wait?).IsOnTime began timeout now) :
    now ≤ began + timeout.millisUp := by
  cases wait? with
  | none =>
    have first : now = began := h
    exact first ▸ Nat.le_add_right _ _
  | some w => exact h.1 ▸ h.2

namespace State

/-- The host has given cycle `i` up. -/
def IsAborted (i : Nat) (s : State) : Prop := ∃ x ∈ s.chronicle, x.what = .aborted i

/-- Cycle `i` of the resource in place `p`, which began at a moment, stands where it may. -/
def IsOnTime (S : Setup) (i p began : Nat) (s : State) : Prop :=
  ∃ c : Cycle, s.cycles[i]? = some c ∧ c.place = p ∧
    c.stage.IsOnTime began S.settings.startupTimeout s.now

variable {S : Setup} {i began : Nat} {c : Cycle} {s t : State}

/-- The wait before a look was to end with the timeout. -/
theorem Awaits.deadline {before : Wait} (looks : Awaits S c s before)
    (on : c.stage.IsOnTime began S.settings.startupTimeout s.now) :
    before.deadline = began + S.settings.startupTimeout.millisUp ∧ s.now ≤ before.deadline := by
  cases looks with
  | first gated near =>
    rw [gated] at on
    have now : s.now = began := on
    exact ⟨congrArg (· + _) now, Nat.le_add_right _ _⟩
  | again gated =>
    rw [gated] at on
    exact on

/-- A cycle keeps the time. -/
theorem CycleStep.isOnTime (h : CycleStep S i c s t) (hc : s.cycles[i]? = some c)
    (on : c.stage.IsOnTime began S.settings.startupTimeout s.now) :
    ∃ c', t.cycles[i]? = some c' ∧ c'.place = c.place ∧
      c'.stage.IsOnTime began S.settings.startupTimeout s.now := by
  have early : ¬ c.stage = .fresh := by
    intro fresh
    rw [fresh] at on
    exact on
  cases h with
  | rests isOver => exact ⟨c, hc, rfl, on⟩
  | turnsAway fresh hm => exact absurd fresh early
  | begins fresh hm => exact absurd fresh early
  | obeys gated told => exact ⟨_, getElem?_leave c.place .stopped hc, rfl, trivial⟩
  | breaks gated far => exact ⟨_, getElem?_setCycle_self .finished hc, rfl, trivial⟩
  | waits looks going =>
    exact ⟨_, getElem?_setCycle_self _ (getElem?_noteSeen hc), rfl, looks.deadline on⟩
  | starts looks ready =>
    obtain ⟨b, -, called⟩ := getElem?_callHook_self (S := S) c.place .start .clean
      (getElem?_noteSeen hc)
    exact ⟨_, called, rfl, trivial⟩
  | meets looks ends => exact ⟨_, getElem?_leave c.place _ (getElem?_noteSeen hc), rfl, trivial⟩
  | fails looks ends => exact ⟨_, getElem?_leave c.place _ (getElem?_noteSeen hc), rfl, trivial⟩
  | hooks inside step =>
    obtain ⟨c', hc', place, ⟨_, _, _, _, stays⟩ | isOver⟩ := step.cycle hc inside
    · exact ⟨c', hc', place, by rw [stays]; trivial⟩
    · exact ⟨c', hc', place, by rw [isOver]; trivial⟩
  | flinches inside => exact ⟨_, getElem?_setCycle_self .finished hc, rfl, trivial⟩

/-- As long as a cycle may go on, no time passes beyond the moment at which it has to. -/
theorem isOnTime_passTo {moment : Nat} (hc : s.cycles[i]? = some c)
    (idle : s.isEnabled (.cycle i) = false)
    (timer : ∀ m, s.timer? (.cycle i) = some m → moment ≤ m)
    (on : c.stage.IsOnTime began S.settings.startupTimeout s.now) :
    c.stage.IsOnTime began S.settings.startupTimeout moment := by
  have timers : s.timer? (.cycle i) = c.timer? := by
    show (s.cycles[i]?).bind (·.timer?) = c.timer?
    rw [hc]
    rfl
  cases hs : c.stage with
  | fresh =>
    rw [hs] at on
    exact on.elim
  | gated wait? =>
    cases wait? with
    | none =>
      have enabled : s.isEnabled (.cycle i) = true := by
        show s.cycleIsEnabled i = true
        unfold cycleIsEnabled
        rw [hc]
        dsimp only
        rw [hs]
      rw [enabled] at idle
      cases idle
    | some w =>
      rw [hs] at on
      refine ⟨on.1, timer _ ?_⟩
      rw [timers, Cycle.timer?, hs]
  | inside hook acts wake exit => trivial
  | finished => trivial

end State

section Run

variable {S : Setup} {admits : Deed → Prop} {who : Option Task} {s s' : State} {i p began : Nat}

theorem State.IsAborted.grow (h : s.IsAborted i) (grows : State.Grows s s') : s'.IsAborted i := by
  obtain ⟨x, hx, aborted⟩ := h
  obtain ⟨more, chronicle⟩ := grows.chronicle
  exact ⟨x, by rw [chronicle]; exact Array.mem_append_left _ hx, aborted⟩

/-- A cycle is always of the same resource. -/
theorem Changes.place (h : Changes S admits who s s') {c : Cycle} (hc : s.cycles[i]? = some c) :
    ∃ c', s'.cycles[i]? = some c' ∧ c'.place = c.place := by
  induction h with
  | refl => exact ⟨c, hc, rfl⟩
  | tail _ last ih =>
    obtain ⟨d, hd, place⟩ := ih
    obtain ⟨e, he, place', -⟩ := last.cycle_after hd
    exact ⟨e, he, place'.trans place⟩

/-- **Others leave a cycle where it is**, or start it, or the host has given it up. -/
theorem Changes.cycle_of_other (h : Changes S admits who s s') (other : who ≠ some (.cycle i))
    {c' : Cycle} (hc' : s'.cycles[i]? = some c') :
    (∃ c, s.cycles[i]? = some c ∧ c'.place = c.place ∧ c'.stage = c.stage) ∨
      (s.cycles[i]? = none ∧ c'.stage = .fresh) ∨ c'.stage = .finished ∧ s'.IsAborted i := by
  induction h generalizing c' with
  | refl => exact .inl ⟨c', hc', rfl, rfl⟩
  | tail _ last ih =>
    rcases last.cycle_of_other other hc' with ⟨d, hd, place, same | ⟨isOver, rfl⟩⟩ | ⟨none, fresh⟩
    · rw [same, place]
      rcases ih hd with old | new | ⟨isOver, aborted⟩
      · exact .inl old
      · exact .inr (.inl new)
      · exact .inr (.inr ⟨isOver, aborted.grow last.grows⟩)
    · exact .inr (.inr ⟨isOver, _, Array.mem_push_self, rfl⟩)
    · refine .inr (.inl ⟨?_, fresh⟩)
      refine Array.getElem?_eq_none (Nat.le_trans (Changes.le_cycles ‹_›) ?_)
      exact Array.getElem?_eq_none_iff.1 none

/-- Others keep the time of a cycle as long as no time passes. -/
theorem Changes.isOnTime (h : Changes S admits who s s') (other : who ≠ some (.cycle i))
    (now : s'.now = s.now) (on : s.IsOnTime S i p began) : s'.IsOnTime S i p began := by
  obtain ⟨c, hc, rfl, on⟩ := on
  obtain ⟨c', hc', place⟩ := h.place hc
  refine ⟨c', hc', place, ?_⟩
  rw [now]
  rcases h.cycle_of_other other hc' with ⟨d, hd, -, same⟩ | ⟨none, -⟩ | ⟨isOver, -⟩
  · rw [hc] at hd
    cases hd
    exact same ▸ on
  · rw [hc] at none
    cases none
  · rw [isOver]
    trivial

/-- **A cycle looks at once, and waits until its deadline at most.** -/
theorem Step.isOnTime (h : Step S admits s s') (ho : s.IsOrderly)
    (on : s.IsOnTime S i p began) : s'.IsOnTime S i p began := by
  cases h with
  | turn t enabled =>
    have chain : Changes S admits (some t) s (s.step S t) := State.changes_step t s ho
    by_cases own : t = .cycle i
    · subst own
      obtain ⟨c, hc, rfl, on⟩ := on
      obtain ⟨c', hc', place, on'⟩ := (State.cycleStep_step (S := S) hc).isOnTime hc on
      exact ⟨c', hc', place, by rw [chain.now]; exact on'⟩
    · exact chain.isOnTime (fun same ↦ own (Option.some.inj same)) chain.now on
  | deed d hd =>
    have chain : Changes S admits none s (s.undergo d) := State.changes_undergo d s hd
    exact chain.isOnTime nofun (State.now_undergo d s) on
  | pass moment later idle timers =>
    obtain ⟨c, hc, rfl, on⟩ := on
    exact ⟨c, hc, rfl, State.isOnTime_passTo hc (idle _) (timers _) on⟩

end Run

end Supervision
