import Supervision.Proofs.Supervisor.Custody
import Supervision.Proofs.Supervisor.Schedule

/-!
# When two cycles of a resource overlap

Cycles of one resource are meant to come one after the other. As long as no restart starts one
beside another that has not ended, they do (`Change.isExclusive`); and the first restart that does
has bypassed another, or comes after one that did (`Reaches.bypasses_of_startsBeside`). From a
bypass, in turn, there is a way to two cycles that are both under way, unless the resource has
stopped or crashed for good. So a resource whose cycles overlap has been restarted while another
restart of it waited for its cycle, and such a restart is all it takes
(`cycles_overlap_after_bypass`).

* `Change.isExclusive` — everything but a restart that starts a cycle beside another keeps cycles
  apart.
* `State.StartsBeside.reaches_overlap` — such a restart leads to an overlap.
-/

namespace Supervision

namespace State

/-- Cycle `i` is of the resource in place `p`, is past its first step and has not ended. -/
def IsUnderWayAt (p i : Nat) (s : State) : Prop :=
  ∃ c : Cycle, s.cycles[i]? = some c ∧ c.place = p ∧ c.stage ≠ .fresh ∧ c.stage ≠ .finished

/-- Two cycles of the resource in place `p` are under way. -/
def Overlaps (p : Nat) (s : State) : Prop :=
  ∃ i k, i ≠ k ∧ s.IsUnderWayAt p i ∧ s.IsUnderWayAt p k

/-- The resource in place `p` has neither stopped nor crashed. -/
def IsAlive (p : Nat) (s : State) : Prop :=
  ∃ c, s.lifecycle? p = some c ∧ c.status ≠ .stopped ∧ c.status ≠ .crashed

/-- Restart `j` is about to start a cycle of a resource that is alive, beside one that has not
ended. -/
structure StartsBeside (j p : Nat) (s : State) : Prop where
  starts : s.IsAboutToStart j p
  beside : ∃ i, s.IsGoing p i
  alive : s.IsAlive p

/-- Cycles of the resource in place `p` are apart: no two are under way, and as long as the resource
is alive, no two have not ended. -/
structure IsExclusive (p : Nat) (s : State) : Prop where
  underWay : ∀ i k, s.IsUnderWayAt p i → s.IsUnderWayAt p k → i = k
  going : s.IsAlive p → ∀ i k, s.IsGoing p i → s.IsGoing p k → i = k

variable {S : Setup} {s t : State} {p i : Nat}

theorem IsUnderWayAt.isGoing (h : s.IsUnderWayAt p i) : s.IsGoing p i := by
  obtain ⟨c, hc, place, -, going⟩ := h
  exact ⟨c, hc, place, going⟩

theorem isAlive_of_allows {c : Lifecycle} {target : Status} (hc : s.lifecycle? p = some c)
    (h : c.status.allows target = true) : s.IsAlive p := by
  obtain ⟨notStopped, notCrashed⟩ := Status.exists_allows_iff.1 ⟨target, h⟩
  exact ⟨c, hc, notStopped, notCrashed⟩

theorem allows_of_mark {m : Mark} {target : Status} {c : Lifecycle} (ht : m.target? = some target)
    (h : s.mark p m = .ok t) (hc : s.lifecycle? p = some c) : c.status.allows target = true := by
  rcases mark_cases h with ⟨nobody, -⟩ | ⟨l, l', published, hl, hm, -⟩
  · rw [nobody] at hc
    cases hc
  · rw [hl] at hc
    cases hc
    rcases Lifecycle.mark_eq_ok hm with ⟨none, -⟩ | ⟨_, some, moves⟩
    · rw [ht] at none
      cases none
    · rw [ht] at some
      cases some
      exact moves.legal

theorem Fits.exists_lifecycle (h : s.Fits S) (hp : p < S.posts.size) :
    ∃ c, s.lifecycle? p = some c := by
  have names := h.names p
  rw [Array.getElem?_eq_getElem hp] at names
  obtain ⟨c, hc, -⟩ := Option.map_eq_some_iff.1 names
  exact ⟨c, hc⟩

end State

namespace Change

variable {S : Setup} {admits : Deed → Prop} {who : Option Task} {s s' : State} {p i : Nat}

/-- A resource that is alive was so before. -/
theorem isAlive_before (h : Change S admits who s s') (alive : s'.IsAlive p) : s.IsAlive p := by
  obtain ⟨c', hc', notStopped, notCrashed⟩ := alive
  obtain ⟨c, hc, -, ⟨status, -⟩ | ⟨target, _, legal, -⟩⟩ := h.lifecycle hc'
  · exact ⟨c, hc, status ▸ notStopped, status ▸ notCrashed⟩
  · exact State.isAlive_of_allows hc legal

/-- A cycle that is under way was so before, or it has just begun, and its resource is alive. -/
theorem isUnderWayAt_before (h : Change S admits who s s') (hf : s.Fits S)
    (hu : s'.IsUnderWayAt p i) : s.IsUnderWayAt p i ∨ s.IsGoing p i ∧ s.IsAlive p := by
  obtain ⟨c', hc', rfl, begun, going⟩ := hu
  rcases h.cycle_before hc' with ⟨b, hb, place⟩ | ⟨-, new, -⟩
  · have unfinished := h.notFinished_before hb hc' going
    by_cases fresh : b.stage = .fresh
    -- It has just begun, and may only do so while its resource is alive.
    · refine .inr ⟨⟨b, hb, place.symm, unfinished⟩, ?_⟩
      obtain ⟨c, hc, -, same | ⟨-, ⟨rfl, -⟩ | ⟨ended, -⟩⟩⟩ := h.cycle_after hb
      · rw [hc'] at hc
        cases hc
        exact absurd (same.trans fresh) begun
      · rcases h.of_fresh hb fresh with ⟨d, hd, -, stays⟩ | ⟨t, hm, -⟩ | ⟨e, -, rfl⟩
        · rw [hc'] at hd
          cases hd
          exact absurd stays begun
        · obtain ⟨l, hl⟩ := hf.exists_lifecycle (hf.cycles i b hb)
          rw [place]
          exact State.isAlive_of_allows hl (State.allows_of_mark rfl hm hl)
        · rw [State.getElem?_setCycle_self _ hb] at hc'
          cases hc'
          exact absurd rfl going
      · rw [hc'] at hc
        cases hc
        exact absurd ended going
    · exact .inl ⟨b, hb, place.symm, fresh, unfinished⟩
  · rw [new] at begun
    exact absurd rfl begun

/-- **Everything but a restart that starts a cycle beside another keeps cycles apart.** -/
theorem isExclusive (h : Change S admits who s s') (hf : s.Fits S) (begun : s.host ≠ .fresh)
    (alone : ∀ j, who = some (.restart j) → ¬ s.StartsBeside j p) (he : s.IsExclusive p) :
    s'.IsExclusive p where
  underWay i k hi hk := by
    rcases h.isUnderWayAt_before hf hi with hi | ⟨hi, alive⟩
    · rcases h.isUnderWayAt_before hf hk with hk | ⟨hk, alive⟩
      · exact he.underWay i k hi hk
      · exact he.going alive i k hi.isGoing hk
    · rcases h.isUnderWayAt_before hf hk with hk | ⟨hk, -⟩
      · exact he.going alive i k hi hk.isGoing
      · exact he.going alive i k hi hk
  going alive i k hi hk := by
    have alive' := h.isAlive_before alive
    rcases h.isGoing_before hf (fun _ ↦ begun) hi with hi | ⟨ei, -, j, hw, starts⟩
    · rcases h.isGoing_before hf (fun _ ↦ begun) hk with hk | ⟨-, -, j, hw, starts⟩
      · exact he.going alive' i k hi hk
      · exact absurd ⟨starts, ⟨i, hi⟩, alive'⟩ (alone j hw)
    · rcases h.isGoing_before hf (fun _ ↦ begun) hk with hk | ⟨ek, -⟩
      · exact absurd ⟨starts, ⟨k, hk⟩, alive'⟩ (alone j hw)
      · exact ei.trans ek.symm

end Change

namespace State

variable {S : Setup} {admits : Deed → Prop} {s t : State} {p i j : Nat}

/-! ### From a restart to an overlap -/

/-- What a restart that starts a cycle does. -/
theorem IsAboutToStart.step (h : s.IsAboutToStart j p) :
    s.isEnabled (.restart j) = true ∧
      (s.step S (.restart j)).cycles = s.cycles.push { place := p } ∧
      (s.step S (.restart j)).ensemble = s.ensemble ∧
      (s.step S (.restart j)).stopping = s.stopping := by
  cases h with
  | @due stage hr due here going free =>
    have released : s.isEnabled (.restart j) = true ∧ s.step S (.restart j) = s.release j p := by
      unfold isEnabled State.step restartIsEnabled stepRestart
      dsimp only
      rw [hr]
      dsimp only
      cases stage with
      | fresh delay =>
        have now : delay.millisUp = 0 := of_decide_eq_true due
        exact ⟨rfl, if_pos (by simp [now])⟩
      | sleeping wake =>
        have past : wake ≤ s.now := of_decide_eq_true due
        exact ⟨by simp [past], if_pos (by simp [past])⟩
      | joining c => cases due
      | finished => cases due
    refine ⟨released.1, ?_⟩
    rw [released.2]
    have h := release_release j p s
    generalize s.release j p = t at h ⊢
    cases h with
    | abandoned ha => simp [here, going] at ha
    | @joins m c _ hm hc =>
      unfold run? at free
      rw [hm] at free
      exact absurd (hc.symm.trans free) (Option.some_ne_none c)
    | starts _ _ hc => exact ⟨rfl, rfl, rfl⟩
  | @joined c hr gone going =>
    have respawned : s.step S (.restart j) = s.respawn j p := by
      unfold State.step stepRestart
      dsimp only
      rw [hr]
      exact if_pos gone
    refine ⟨?_, ?_⟩
    · unfold isEnabled restartIsEnabled
      dsimp only
      rw [hr]
      exact gone
    · rw [respawned, respawn, if_neg (Bool.eq_false_iff.1 going)]
      exact ⟨rfl, rfl, rfl⟩

/-- A cycle that has not begun begins when its resource may be started. -/
theorem step_cycle_of_fresh {c : Cycle} {l : Lifecycle} (hc : s.cycles[i]? = some c)
    (fresh : c.stage = .fresh) (hl : s.lifecycle? c.place = some l)
    (legal : l.status.allows .starting = true) :
    s.isEnabled (.cycle i) = true ∧
      (s.step S (.cycle i)).cycles = (s.setCycle i (.gated none)).cycles ∧
      (s.step S (.cycle i)).IsAlive c.place := by
  refine ⟨?_, ?_⟩
  · unfold isEnabled cycleIsEnabled
    dsimp only
    rw [hc]
    dsimp only
    rw [fresh]
  · cases hm : s.mark c.place .starting with
    | error e => cases legal.symm.trans (illegal_of_mark hm rfl hl)
    | ok t =>
      have begins : s.step S (.cycle i) = t.setCycle i (.gated none) := by
        unfold State.step stepCycle
        dsimp only
        rw [hc]
        dsimp only
        rw [fresh]
        dsimp only
        rw [hm]
      rw [begins]
      refine ⟨?_, ?_⟩
      · unfold setCycle
        dsimp only
        rw [cycles_of_mark hm]
      · have kept := names_of_mark hm c.place
        rw [hl] at kept
        obtain ⟨l', hl', -⟩ := Option.map_eq_some_iff.1 kept
        have starting := status_of_mark rfl hm hl'
        exact ⟨l', hl', by rw [starting]; nofun, by rw [starting]; nofun⟩

/-- Whoever may mark a resource that is alive can see to it that it may be started. -/
theorem IsAlive.reaches_startable (alive : s.IsAlive p) (marks : ∀ m, admits (.mark p m)) :
    ∃ t l, Reaches S admits s t ∧ t.cycles = s.cycles ∧ t.lifecycle? p = some l ∧
      l.status.allows .starting = true := by
  obtain ⟨l, hl, notStopped, notCrashed⟩ := alive
  by_cases legal : l.status.allows .failed = true
  · cases hm : s.mark p (.failed (.plain "failed" "failed")) with
    | error e => cases legal.symm.trans (illegal_of_mark hm rfl hl)
    | ok t =>
      have kept := names_of_mark hm p
      rw [hl] at kept
      obtain ⟨l', hl', -⟩ := Option.map_eq_some_iff.1 kept
      have failed := status_of_mark rfl hm hl'
      have marked : s.undergo (.mark p (.failed (.plain "failed" "failed"))) = t := by
        unfold undergo tryMark
        dsimp only
        rw [hm]
      refine ⟨t, l', ?_, cycles_of_mark hm, hl', by rw [failed]; rfl⟩
      exact marked ▸ .step (.refl s) (.deed _ (marks _))
  · refine ⟨s, l, .refl s, rfl, hl, ?_⟩
    cases status : l.status with
    | notStarted => rfl
    | failed => rfl
    | starting => rw [status] at legal; exact absurd rfl legal
    | running => rw [status] at legal; exact absurd rfl legal
    | stopped => exact absurd status notStopped
    | crashed => exact absurd status notCrashed

/-- A cycle of a resource that is alive can get under way, and no other cycle need move. -/
theorem IsGoing.reaches_underWay (h : s.IsGoing p i) (alive : s.IsAlive p)
    (marks : ∀ m, admits (.mark p m)) :
    ∃ t, Reaches S admits s t ∧ t.IsUnderWayAt p i ∧ t.IsAlive p ∧
      ∀ k, k ≠ i → t.cycles[k]? = s.cycles[k]? := by
  obtain ⟨c, hc, rfl, going⟩ := h
  by_cases fresh : c.stage = .fresh
  · obtain ⟨t, l, reached, cycles, hl, legal⟩ := alive.reaches_startable (S := S) marks
    have hc' : t.cycles[i]? = some c := cycles ▸ hc
    obtain ⟨enabled, moved, alive'⟩ := step_cycle_of_fresh (S := S) hc' fresh hl legal
    refine ⟨_, reached.step (.turn (.cycle i) enabled), ⟨{ c with stage := .gated none }, ?_, rfl,
      by nofun, by nofun⟩, alive', fun k hk ↦ ?_⟩
    · rw [moved]
      exact getElem?_setCycle_self _ hc'
    · rw [moved, getElem?_setCycle_of_ne _ hk, cycles]
  · exact ⟨s, .refl s, ⟨c, hc, rfl, fresh, going⟩, alive, fun _ _ ↦ rfl⟩

theorem IsAlive.of_ensemble (alive : s.IsAlive p) (h : t.ensemble = s.ensemble) : t.IsAlive p := by
  obtain ⟨l, hl, alive⟩ := alive
  exact ⟨l, by rw [← hl, lifecycle?, lifecycle?, h], alive⟩

/-- A restart that starts a cycle beside another leads to an overlap, if only somebody marks the
resource as failed. -/
theorem StartsBeside.reaches_overlap (h : s.StartsBeside j p) (marks : ∀ m, admits (.mark p m)) :
    ∃ t, Reaches S admits s t ∧ t.Overlaps p := by
  -- The restart starts its cycle; then the old one gets under way, unless it is, and then the new.
  obtain ⟨i, c, hc, place, going⟩ := h.beside
  obtain ⟨enabled, cycles, ensemble, -⟩ := h.starts.step (S := S)
  have hi : i < s.cycles.size := (Array.getElem?_eq_some_iff.1 hc).1
  have first : (s.step S (.restart j)).IsGoing p i :=
    ⟨c, by rw [cycles, Array.getElem?_push, if_neg (Nat.ne_of_lt hi), hc], place, going⟩
  obtain ⟨t, toT, firstUnderWay, aliveT, others⟩ :=
    first.reaches_underWay (S := S) (h.alive.of_ensemble ensemble) marks
  have second : t.IsGoing p s.cycles.size :=
    ⟨{ place := p }, by rw [others _ (Nat.ne_of_gt hi), cycles, Array.getElem?_push_size], rfl,
      by nofun⟩
  obtain ⟨u, toU, secondUnderWay, -, others'⟩ := second.reaches_underWay (S := S) aliveT marks
  refine ⟨u, ((Reaches.step (.refl s) (.turn (.restart j) enabled)).trans toT).trans toU, i,
    s.cycles.size, Nat.ne_of_lt hi, ?_, secondUnderWay⟩
  obtain ⟨d, hd, underWay⟩ := firstUnderWay
  exact ⟨d, by rw [others' _ (Nat.ne_of_lt hi), hd], underWay⟩

/-- A restart that bypasses another starts a cycle beside the one that the other waits for, or, when
that one has just ended, the other starts one beside the new one. -/
theorem Bypasses.reaches_startsBeside (h : s.Bypasses j p) (alive : s.IsAlive p)
    (linked : s.IsLinked) : ∃ t k, Reaches S admits s t ∧ t.StartsBeside k p := by
  obtain ⟨k, i, joined⟩ := h.other
  obtain ⟨c, hc, place⟩ := linked k p i joined
  by_cases gone : s.cycleIsOver i = true
  -- No cycle is left beside which `j` could start one; but once it has, `k` starts another.
  · obtain ⟨enabled, cycles, ensemble, stopping⟩ := h.starts.step (S := S)
    have single : _ ∨ Change S admits _ _ _ := State.change_stepRestart j s
    have moved : Change S admits (some (.restart j)) s (s.step S (.restart j)) := by
      refine single.resolve_left fun same ↦ ?_
      have size := congrArg (·.cycles.size) same
      simp [show s.stepRestart j = s.step S (.restart j) from rfl, cycles] at size
    have waits : (s.step S (.restart j)).restarts[k]? = some ⟨p, .joining i⟩ := by
      refine (moved.restart_stays joined).resolve_right fun same ↦ ?_
      cases same
      obtain ⟨stage, hj, early⟩ := h.early
      rw [joined] at hj
      cases hj
      cases early
    exact ⟨_, k, .step (.refl s) (.turn (.restart j) enabled),
      .joined waits (moved.cycleIsOver hc gone) (stopping.trans h.starts.going),
      ⟨s.cycles.size, { place := p }, by rw [cycles, Array.getElem?_push_size], rfl, by nofun⟩,
      alive.of_ensemble ensemble⟩
  · refine ⟨s, j, .refl s, h.starts, ⟨i, c, hc, place, fun finished ↦ gone ?_⟩, alive⟩
    exact (cycleIsOver_iff_of_some hc).2 finished

/-! ### At the beginning of a run -/

theorem IsAtStart.isExclusive (h : s.IsAtStart) : s.IsExclusive p := by
  have same : ∀ i k, s.IsGoing p i → s.IsGoing p k → i = k := by
    rintro i k ⟨c, hc, rfl, -⟩ ⟨d, hd, place, -⟩
    have current := h.current i c hc
    rw [← place, h.current k d hd] at current
    exact (Option.some.inj current).symm
  exact ⟨fun i k hi hk ↦ same i k hi.isGoing hk.isGoing, fun _ ↦ same⟩

end State

section Run

variable {S : Setup} {admits : Deed → Prop} {s s' : State} {p j : Nat}

theorem Reaches.isAlive_before (h : Reaches S admits s s') (ho : s.IsOrderly)
    (alive : s'.IsAlive p) : s.IsAlive p :=
  (h.keeps_changes (P := fun t ↦ t.IsAlive p → s.IsAlive p) (fun _ before change alive ↦
    before (change.isAlive_before alive)) ho id).2 alive

theorem Reaches.isLinked (h : Reaches S admits s s') (sound : s.IsSound S)
    (linked : s.IsLinked) : s'.IsLinked :=
  (h.keeps_changes (P := fun s ↦ s.Fits S ∧ s.IsLinked) (fun _ hP change ↦
    ⟨change.fits hP.1, change.isLinked hP.1 hP.2⟩) sound.orderly ⟨sound.fits, linked⟩).2.2

theorem Reaches.isSound_of (h : Reaches S admits s s') (sound : s.IsSound S) : s'.IsSound S :=
  h.keeps (fun hs step ↦ step.isSound hs) sound

/-- The first restart that starts a cycle beside another has bypassed one, or comes after one that
did. -/
theorem Reaches.bypasses_of_startsBeside (alone : ¬ admits .call) (h : Reaches S admits s s')
    (sound : s.IsSound S) (begun : s.host ≠ .fresh) (custody : s.IsInCustody p)
    (beside : s'.StartsBeside j p) :
    ∃ t k, Reaches S admits s t ∧ t.Bypasses k p ∧ t.IsAlive p ∧ Reaches S admits t s' := by
  have kept : ∀ {who t t'}, t.IsSound S → t.host ≠ .fresh →
      t.stopping = true ∨ t.IsInCustody p → (∀ k, who = some (.restart k) → ¬ t.Bypasses k p) →
      Change S admits who t t' → t'.stopping = true ∨ t'.IsInCustody p := by
    intro who t t' sound begun hP others c
    cases going : t'.stopping with
    | true => exact .inl rfl
    | false =>
      rcases hP with stopping | custody
      · rw [c.stopping_mono stopping] at going
        cases going
      · exact .inr (c.isInCustody sound.fits begun going others custody)
  rcases h.keeps_unless alone kept sound begun (.inr custody) with
    ⟨t, k, toT, bypasses, later⟩ | stopping | custody
  · have orderly := (toT.isSound_of sound).orderly
    exact ⟨t, k, toT, bypasses, later.isAlive_before orderly beside.alive, later⟩
  · rw [beside.starts.going] at stopping
    cases stopping
  · obtain ⟨i, hi⟩ := beside.beside
    exact ⟨s', j, h, State.bypasses_of_isAboutToStart custody beside.starts hi, beside.alive,
      .refl s'⟩

/-- **When cycles of a resource overlap.** Let the first run begin, and let nobody ask for another
one. Before cycles of a resource overlap, a restart of it bypasses another one while the resource is
alive; and from every such moment an overlap can be reached, if only the resource may be marked. -/
theorem cycles_overlap_after_bypass {bus : Bus} {recorder : Option Recorder} {now : Nat}
    {s₀ : State} (before : Reaches S (fun _ ↦ True) (State.initial S bus recorder now) s₀)
    (first : s₀.IsFirstRun) (alone : ¬ admits .call) (p : Nat) :
    (∀ s, Reaches S admits (s₀.stepHost S) s → s.Overlaps p →
      ∃ t j, Reaches S admits (s₀.stepHost S) t ∧ t.Bypasses j p ∧ t.IsAlive p ∧
        Reaches S admits t s) ∧
    ((∀ m, admits (.mark p m)) → ∀ t j, Reaches S admits (s₀.stepHost S) t → t.Bypasses j p →
      t.IsAlive p → ∃ s, Reaches S admits t s ∧ s.Overlaps p) := by
  have enabled : s₀.isEnabled .host = true := by
    simp [State.isEnabled, State.hostIsEnabled, first.asked]
  have begins : s₀.stepHost S = s₀.beginRun S := by
    unfold State.stepHost
    rw [first.asked]
  have reached := before.step (.turn .host enabled)
  have sound : (s₀.stepHost S).IsSound S := reached.isSound
  have linked : (s₀.stepHost S).IsLinked :=
    reached.isLinked (State.isSound_initial S bus recorder now)
      (State.isLinked_initial S bus recorder now)
  have start : (s₀.stepHost S).IsAtStart := begins ▸ first.isAtStart before.isSound.fits
  have begun : (s₀.stepHost S).host ≠ .fresh := by
    rw [begins]
    intro fresh
    cases fresh
  refine ⟨fun s run overlaps ↦ ?_, fun marks t j run bypasses alive ↦ ?_⟩
  -- Cycles stay apart until one is started beside another, and that takes a bypass.
  · obtain ⟨i, k, ne, hi, hk⟩ := overlaps
    have kept : ∀ {who t t'}, t.IsSound S → t.host ≠ .fresh → t.IsExclusive p →
        (∀ j, who = some (.restart j) → ¬ t.StartsBeside j p) → Change S admits who t t' →
        t'.IsExclusive p :=
      fun sound begun he others c ↦ c.isExclusive sound.fits begun others he
    rcases run.keeps_unless alone kept sound begun start.isExclusive with
      ⟨u, j, toU, beside, later⟩ | apart
    · obtain ⟨t, k, toT, bypasses, alive, toU'⟩ :=
        toU.bypasses_of_startsBeside alone sound begun start.isInCustody beside
      exact ⟨t, k, toT, bypasses, alive, toU'.trans later⟩
    · exact absurd (apart.underWay i k hi hk) ne
  · obtain ⟨u, k, toU, beside⟩ : ∃ u k, Reaches S admits t u ∧ u.StartsBeside k p :=
      bypasses.reaches_startsBeside alive (run.isLinked sound linked)
    obtain ⟨s, toS, overlaps⟩ := beside.reaches_overlap marks
    exact ⟨s, toU.trans toS, overlaps⟩

end Run

/-! ### A resource that fails while it is told to end -/

/-- The first cycle of its resource fails, and fails once more when it is told to end, and even then
does not end at once. -/
def Setup.restless : Setup := .single fun
  | 0 => { serve := [.mark (.failed (.plain "resource_failed" "lost")), .untilCancelled,
      .mark .starting, .mark (.failed (.plain "resource_failed" "lost again")), .sleep 30] }
  | _ => { serve := [.untilCancelled] }

namespace State

/-- The restless resource was restarted twice. -/
def restlessRestarted : State :=
  ((asked .restless).stepHost .restless).play .restless
    (Cue.failure ++ [.turn (.restart 0)] ++ .replicate 4 (.turn (.cycle 0)) ++
      .replicate 3 (.turn (.watcher 0)) ++ [.turn (.restart 1), .turn (.cycle 1)])

theorem reaches_restlessRestarted :
    Reaches .restless (· ≠ .call) ((asked .restless).stepHost .restless) restlessRestarted := by
  refine reaches_play (.refl _) (by decide +kernel) fun e he call ↦ ?_
  subst call
  exact absurd he (by simp [Cue.failure])

theorem overlaps_restlessRestarted : restlessRestarted.Overlaps 0 := by
  have stages : ∀ i < 2, (restlessRestarted.cycles[i]?).map (fun c ↦
      (c.place, decide (c.stage = .fresh), decide (c.stage = .finished))) =
        some (0, false, false) := by
    decide +kernel
  have underWay : ∀ i < 2, restlessRestarted.IsUnderWayAt 0 i := by
    intro i hi
    obtain ⟨c, hc, stage⟩ := Option.map_eq_some_iff.1 (stages i hi)
    simp only [Prod.mk.injEq, decide_eq_false_iff_not] at stage
    exact ⟨c, hc, stage.1, stage.2⟩
  exact ⟨0, 1, by nofun, underWay 0 (by decide), underWay 1 (by decide)⟩

end State

/-- Before the cycles of the restless resource overlap, a restart of it bypasses another one. -/
theorem restless_bypasses :
    ∃ t j, Reaches .restless (· ≠ .call) ((State.asked .restless).stepHost .restless) t ∧
      t.Bypasses j 0 ∧ t.IsAlive 0 := by
  obtain ⟨t, j, reached, bypasses, alive, -⟩ := (cycles_overlap_after_bypass
    (State.reaches_asked .restless trivial) ⟨rfl, rfl, rfl⟩ (by simp) 0).1 _
    State.reaches_restlessRestarted State.overlaps_restlessRestarted
  exact ⟨t, j, reached, bypasses, alive⟩

/-- **Cycles of a resource can overlap**, even in the first run. -/
theorem restless_overlaps :
    ∃ s, Reaches .restless (· ≠ .call) ((State.asked .restless).stepHost .restless) s ∧
      s.Overlaps 0 :=
  ⟨_, State.reaches_restlessRestarted, State.overlaps_restlessRestarted⟩

end Supervision
