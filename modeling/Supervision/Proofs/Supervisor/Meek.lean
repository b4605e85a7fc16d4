import Supervision.Proofs.Supervisor.CycleSteps
import Supervision.Proofs.Supervisor.Gating
import Supervision.Proofs.Supervisor.Overlap

/-!
# Hooks that leave the status alone

Where hooks mark readiness only, and so does everybody outside, the status of a resource is for its
cycles to drive (`Drives`): a cycle that begins makes it starting, goes on while it is starting or
running, and when it ends makes it stopped, failed or crashed in the same step, unless it breaks off
and leaves it as it is. So the status fits where the cycle stands, and no two cycles of a resource are
under way at once (`State.IsSteady`).

* `State.CycleStep.drives` — what a step of a cycle makes of the cycle and of its resource.
* `Reaches.isSteady` — the status fits at every moment of every run.
-/

namespace Supervision

/-! ### Meekness -/

/-- The act marks no status. -/
def Act.IsMeek (a : Act) : Prop := ∀ m, a = .mark m → m.target? = none

/-- No hook of any cycle of any resource marks a status. -/
def Setup.IsMeek (S : Setup) : Prop :=
  ∀ (p : Nat) (post : Post), S.posts[p]? = some post →
    ∀ (n : Nat) (hook : Hook), ∀ a ∈ (post.behaviour n).script hook, a.IsMeek

/-- Nobody outside marks a status. -/
def Deed.IsMeek (admits : Deed → Prop) : Prop := ∀ p m, admits (.mark p m) → m.target? = none

theorem State.IsBehaviourAt.isMeek {S : Setup} {p : Nat} {b : Behaviour} (meek : S.IsMeek)
    (h : State.IsBehaviourAt S p b) (hook : Hook) : ∀ a ∈ b.script hook, a.IsMeek :=
  h.acts fun post hp n ↦ meek p post hp n hook

/-! ### What a cycle makes of its resource -/

namespace CycleStage

/-- The cycle is past its first step and has not ended. -/
def IsUnderWay (stage : CycleStage) : Prop := stage ≠ .fresh ∧ stage ≠ .finished

/-- The status of a resource fits where a cycle of it stands, whose hook has no status left to
mark. -/
def Suits (status : Status) : CycleStage → Prop
  | .gated _ => status = .starting
  | .inside _ acts _ _ => (status = .starting ∨ status = .running) ∧ ∀ a ∈ acts, a.IsMeek
  | .fresh | .finished => True

theorem Suits.going {status : Status} {stage : CycleStage} (h : stage.Suits status)
    (underWay : stage.IsUnderWay) : status = .starting ∨ status = .running := by
  cases stage with
  | fresh => exact absurd rfl underWay.1
  | gated wait? => exact .inl h
  | inside hook acts wake exit => exact h.1
  | finished => exact absurd rfl underWay.2

theorem Suits.starting {status : Status} {stage : CycleStage} (h : stage.Suits status)
    {wait? : Option Wait} (gated : stage = .gated wait?) : status = .starting := by
  subst gated
  exact h

theorem Suits.of_not_underWay {status : Status} {stage : CycleStage}
    (apart : ¬ stage.IsUnderWay) : stage.Suits status := by
  cases stage with
  | fresh => trivial
  | gated wait? => exact absurd ⟨nofun, nofun⟩ apart
  | inside hook acts wake exit => exact absurd ⟨nofun, nofun⟩ apart
  | finished => trivial

theorem Suits.not_allows {status : Status} {stage : CycleStage} (h : stage.Suits status)
    (underWay : stage.IsUnderWay) : status.allows .starting = false := by
  rcases h.going underWay with rfl | rfl <;> rfl

end CycleStage

/-- What a step makes of a cycle, and of the lifecycle of its resource. -/
inductive Drives (c : Cycle) (l : Lifecycle) (c' : Cycle) (l' : Lifecycle) : Prop where
  /-- It had ended before. -/
  | rests (isOver : c.stage = .finished) (cycle : c' = c) (same : l' = l)
  /-- Its resource may not start now. -/
  | turnsAway (fresh : c.stage = .fresh) (illegal : l.status.allows .starting = false)
      (isOver : c'.stage = .finished) (same : l' = l)
  | begins (fresh : c.stage = .fresh) (legal : l.status.allows .starting = true)
      (gated : c'.stage = .gated none) (status : l'.status = .starting)
      (failures : l'.failures = l.failures)
  | goesOn (before : c.stage.IsUnderWay) (after : c'.stage.IsUnderWay)
      (suits : c'.stage.Suits l'.status) (failures : l'.failures = l.failures)
  | ends (before : c.stage.IsUnderWay) (isOver : c'.stage = .finished)
      (failures : l'.failures = if l'.status = .failed then l.failures + 1 else l.failures)

theorem Drives.suits {c c' : Cycle} {l l' : Lifecycle} (h : Drives c l c' l')
    (before : c.stage.Suits l.status) : c'.stage.Suits l'.status := by
  cases h with
  | rests isOver cycle same =>
    rw [cycle, same]
    exact before
  | turnsAway fresh illegal isOver same =>
    rw [isOver]
    trivial
  | begins fresh legal gated status failures =>
    rw [gated]
    exact status
  | goesOn before after suits failures => exact suits
  | ends before isOver failures =>
    rw [isOver]
    trivial

theorem Drives.of_finished {c c' : Cycle} {l l' : Lifecycle} (h : Drives c l c' l')
    (isOver : c.stage = .finished) : c' = c ∧ l' = l := by
  cases h with
  | rests isOver cycle same => exact ⟨cycle, same⟩
  | turnsAway fresh =>
    rw [fresh] at isOver
    cases isOver
  | begins fresh =>
    rw [fresh] at isOver
    cases isOver
  | goesOn before => exact absurd isOver before.2
  | ends before => exact absurd isOver before.2

/-- While its resource may not start, a cycle that is not under way changes nothing of it and does
not get under way. -/
theorem Drives.apart {c c' : Cycle} {l l' : Lifecycle} (h : Drives c l c' l')
    (apart : ¬ c.stage.IsUnderWay) (barred : l.status.allows .starting = false) :
    l' = l ∧ ¬ c'.stage.IsUnderWay := by
  cases h with
  | rests isOver cycle same => exact ⟨same, cycle ▸ apart⟩
  | turnsAway fresh illegal isOver same => exact ⟨same, fun ⟨_, going⟩ ↦ going isOver⟩
  | begins fresh legal gated status failures =>
    rw [barred] at legal
    cases legal
  | goesOn before after suits failures => exact absurd before apart
  | ends before isOver failures => exact absurd before apart

/-- What has come of cycle `i`, which stood as `c`, and of its resource with lifecycle `l`. -/
def State.IsDriven (i : Nat) (c : Cycle) (l : Lifecycle) (t : State) : Prop :=
  ∃ c' l', t.cycles[i]? = some c' ∧ c'.place = c.place ∧ t.lifecycle? c.place = some l' ∧
    Drives c l c' l'

namespace State

variable {S : Setup} {i p : Nat} {c : Cycle} {l : Lifecycle} {s t : State}

/-- A mark that is carried out is carried out on the lifecycle. -/
theorem lifecycle?_mark {m : Mark} (h : s.mark p m = .ok t) (hl : s.lifecycle? p = some l) :
    ∃ l' published, l.mark m = .ok (l', published) ∧ t.lifecycle? p = some l' := by
  rcases mark_cases h with ⟨nobody, -⟩ | ⟨k, l', published, hk, hm, rfl⟩
  · rw [hl] at nobody
    cases nobody
  · rw [hl] at hk
    cases hk
    obtain ⟨hlt, -⟩ := Array.getElem?_eq_some_iff.1 hl
    refine ⟨l', published, hm, ?_⟩
    rw [publishAll_eq]
    show (s.ensemble.members.setIfInBounds p l')[p]? = some l'
    rw [Array.getElem?_setIfInBounds, if_pos rfl, if_pos hlt]

/-- A mark of a status that may follow is carried out. -/
theorem movesTo_tryMark {m : Mark} {target : Status} (ht : m.target? = some target)
    (legal : l.status.allows target = true) (hl : s.lifecycle? p = some l) :
    ∃ l' published, (s.tryMark p m).lifecycle? p = some l' ∧
      l.MovesTo target m.failure? l' published := by
  unfold tryMark
  cases hm : s.mark p m with
  | error e =>
    cases legal.symm.trans (illegal_of_mark hm ht hl)
  | ok t =>
    obtain ⟨l', published, marked, hl'⟩ := lifecycle?_mark hm hl
    rcases Lifecycle.mark_eq_ok marked with ⟨none, -⟩ | ⟨next, hn, moves⟩
    · rw [ht] at none
      cases none
    · rw [ht] at hn
      cases hn
      exact ⟨l', published, hl', moves⟩

theorem lifecycle?_noteSeen (seen : List Nat) :
    (s.noteSeen i seen).lifecycle? p = s.lifecycle? p := by
  unfold lifecycle?
  rw [ensemble_noteSeen]

theorem lifecycle?_callHook (place : Nat) (hook : Hook) (exit : Exit) (q : Nat) :
    (s.callHook S i place hook exit).lifecycle? q = s.lifecycle? q := by
  obtain ⟨b, members, -, e⟩ := callHook_eq S i place hook exit s
  rw [e]
  rfl

/-- Every way in which the hooks can end settles the resource. -/
theorem exists_target_mark (exit : Exit) :
    ∃ target, exit.mark.target? = some target ∧ target.isTerminal = true := by
  cases exit with
  | clean => exact ⟨.stopped, rfl, rfl⟩
  | panicked message => exact ⟨.failed, rfl, rfl⟩
  | error e => cases e <;> exact ⟨_, rfl, rfl⟩

/-- A resource that is starting or running is settled by the mark for how its hooks have ended. -/
theorem settle_eq_tryMark (exit : Exit) (hl : s.lifecycle? p = some l)
    (going : l.status = .starting ∨ l.status = .running) :
    s.settle p exit = s.tryMark p exit.mark := by
  have status : s.ensemble.status? p = some l.status := congrArg (Option.map Lifecycle.status) hl
  have unsettled : (s.ensemble.status? p).all (·.isTerminal) = false := by
    rw [status]
    rcases going with e | e <;> rw [e] <;> rfl
  unfold settle
  rw [unsettled]
  rfl

/-- A cycle under way that ends leaves its resource in the status it marks last. -/
theorem isDriven_leave {m : Mark} {target : Status} (hc : s.cycles[i]? = some c)
    (hl : s.lifecycle? c.place = some l) (underWay : c.stage.IsUnderWay)
    (going : l.status = .starting ∨ l.status = .running) (ht : m.target? = some target)
    (terminal : target.isTerminal = true) :
    ((s.tryMark c.place m).endCycle i).IsDriven i c l := by
  obtain ⟨l', published, hl', moves⟩ :=
    movesTo_tryMark ht (Status.allows_of_isTerminal going terminal) hl
  refine ⟨_, l', getElem?_leave c.place m hc, rfl, hl', .ends underWay rfl ?_⟩
  rw [moves.failures, moves.status]

/-- A meek act leaves the status alone. -/
theorem HookAct.lifecycle {a : Act} (h : HookAct p a s t) (meek : a.IsMeek)
    (hl : s.lifecycle? p = some l) :
    ∃ l', t.lifecycle? p = some l' ∧ l'.status = l.status ∧ l'.failures = l.failures := by
  cases h with
  | idle => exact ⟨l, hl, rfl, rfl⟩
  | note text => exact ⟨l, hl, rfl, rfl⟩
  | @request cause text act => exact ⟨l, (lifecycle?_request cause p).trans hl, rfl, rfl⟩
  | @mark m u hm act =>
    obtain ⟨l', published, marked, hl'⟩ := lifecycle?_mark hm hl
    rcases Lifecycle.mark_eq_ok marked with ⟨-, -, status, failures⟩ | ⟨target, some, -⟩
    · exact ⟨l', hl', status, failures⟩
    · rw [meek m act] at some
      cases some

/-- What a meek hook does to its cycle and its resource. -/
theorem HookStep.drives {hook : Hook} {acts : List Act} {wake : Option Nat} {exit : Exit}
    (h : HookStep S i c.place hook acts exit s t) (meek : S.IsMeek) (hc : s.cycles[i]? = some c)
    (inside : c.stage = .inside hook acts wake exit) (hl : s.lifecycle? c.place = some l)
    (suits : c.stage.Suits l.status) : t.IsDriven i c l := by
  have before : c.stage.IsUnderWay := by
    rw [inside]
    exact ⟨nofun, nofun⟩
  rw [inside] at suits
  obtain ⟨going, acts'⟩ := suits
  -- It stays in a hook or goes on to the next.
  have stays : ∀ {c' : Cycle} {l' : Lifecycle} {hook acts wake exit},
      c'.stage = .inside hook acts wake exit → (∀ a ∈ acts, a.IsMeek) →
      (l'.status = .starting ∨ l'.status = .running) → l'.failures = l.failures →
      Drives c l c' l' := by
    intro c' l' hook acts wake exit inside meek going failures
    refine .goesOn before ?_ ?_ failures
    · rw [inside]
      exact ⟨nofun, nofun⟩
    · rw [inside]
      exact ⟨going, meek⟩
  cases h with
  | rests => exact ⟨c, l, hc, rfl, hl, stays inside acts' going rfl⟩
  | @acts a u left wake act first fewer =>
    obtain ⟨l', hl', status, failures⟩ := act.lifecycle (acts' a first) hl
    exact ⟨_, l', getElem?_setCycle_self _ (act.cycles ▸ hc), rfl, hl',
      stays rfl (fun b hb ↦ acts' b (fewer b hb)) (status ▸ going) failures⟩
  | @serves u first hm =>
    have hu : u.cycles[i]? = some c := by
      rw [cycles_of_mark hm]
      exact hc
    obtain ⟨b, hb, called⟩ := getElem?_callHook_self (S := S) c.place .serve .clean hu
    obtain ⟨l', published, marked, hl'⟩ := lifecycle?_mark hm hl
    rcases Lifecycle.mark_eq_ok marked with ⟨none, -⟩ | ⟨target, some, moves⟩
    · cases none
    · cases some
      exact ⟨_, l', called, rfl, (lifecycle?_callHook ..).trans hl',
        stays rfl (hb.isMeek meek .serve) (.inr moves.status) moves.failures⟩
  | stops result next more =>
    obtain ⟨b, hb, called⟩ := getElem?_callHook_self (S := S) c.place .stop next
      (s := s.enter (.returned i hook result)) hc
    exact ⟨_, l, called, rfl, (lifecycle?_callHook ..).trans hl,
      stays rfl (hb.isMeek meek .stop) going rfl⟩
  | settles result last =>
    obtain ⟨target, ht, terminal⟩ := exists_target_mark exit
    rw [settle_eq_tryMark (s := s.enter (.returned i hook result)) exit hl going]
    exact isDriven_leave hc hl before going ht terminal

/-- **What a step makes of a cycle and of its resource**, where hooks leave the status alone. -/
theorem CycleStep.drives (h : CycleStep S i c s t) (meek : S.IsMeek) (hc : s.cycles[i]? = some c)
    (hl : s.lifecycle? c.place = some l) (suits : c.stage.Suits l.status) : t.IsDriven i c l := by
  have noted : ∀ {ps : List Nat}, (s.noteSeen i ps).cycles[i]? = some c := getElem?_noteSeen hc
  have kept : ∀ {ps : List Nat}, (s.noteSeen i ps).lifecycle? c.place = some l :=
    (lifecycle?_noteSeen _).trans hl
  have waits : ∀ {wait? : Option Wait}, c.stage = .gated wait? →
      c.stage.IsUnderWay ∧ l.status = .starting := by
    intro wait? gated
    refine ⟨?_, suits.starting gated⟩
    rw [gated]
    exact ⟨nofun, nofun⟩
  have looked : ∀ {before : Wait}, Awaits S c s before →
      c.stage.IsUnderWay ∧ l.status = .starting := by
    intro before looks
    obtain ⟨_, gated⟩ := looks.isGated
    exact waits gated
  cases h with
  | rests isOver => exact ⟨c, l, hc, rfl, hl, .rests isOver rfl rfl⟩
  | turnsAway fresh hm =>
    exact ⟨_, l, getElem?_endCycle_self hc, rfl, hl,
      .turnsAway fresh (illegal_of_mark hm rfl hl) rfl rfl⟩
  | @begins u fresh hm =>
    obtain ⟨l', published, marked, hl'⟩ := lifecycle?_mark hm hl
    rcases Lifecycle.mark_eq_ok marked with ⟨none, -⟩ | ⟨target, some, moves⟩
    · cases none
    · cases some
      have hu : u.cycles[i]? = some c := by
        rw [cycles_of_mark hm]
        exact hc
      exact ⟨_, l', getElem?_setCycle_self _ hu, rfl, hl',
        .begins fresh moves.legal rfl moves.status moves.failures⟩
  | obeys gated told =>
    obtain ⟨underWay, starting⟩ := waits gated
    exact isDriven_leave hc hl underWay (.inl starting) rfl rfl
  | breaks gated far =>
    obtain ⟨underWay, starting⟩ := waits gated
    exact ⟨_, l, getElem?_setCycle_self (s := s) .finished hc, rfl, hl,
      .ends underWay rfl (by rw [starting]; rfl)⟩
  | @waits before looks going =>
    obtain ⟨underWay, starting⟩ := looked looks
    exact ⟨_, l, getElem?_setCycle_self _ noted, rfl, kept,
      .goesOn underWay ⟨nofun, nofun⟩ starting rfl⟩
  | @starts before looks ready =>
    obtain ⟨underWay, starting⟩ := looked looks
    obtain ⟨b, hb, called⟩ := getElem?_callHook_self (S := S) c.place .start .clean noted
    exact ⟨_, l, called, rfl, (lifecycle?_callHook ..).trans kept,
      .goesOn underWay ⟨nofun, nofun⟩ ⟨.inl starting, hb.isMeek meek .start⟩ rfl⟩
  | meets looks ends =>
    obtain ⟨underWay, starting⟩ := looked looks
    exact isDriven_leave noted kept underWay (.inl starting) rfl rfl
  | fails looks ends =>
    obtain ⟨underWay, starting⟩ := looked looks
    exact isDriven_leave noted kept underWay (.inl starting) rfl rfl
  | hooks inside step => exact step.drives meek hc inside hl suits
  | @flinches hook p rest wake exit inside =>
    have underWay : c.stage.IsUnderWay := by
      rw [inside]
      exact ⟨nofun, nofun⟩
    refine ⟨_, l, getElem?_setCycle_self (s := s) .finished hc, rfl, hl, .ends underWay rfl ?_⟩
    rcases suits.going underWay with e | e <;> rw [e] <;> rfl

/-! ### The status fits at every moment -/

/-- The status of every resource fits where each of its cycles stands, of which one at most is under
way. -/
structure IsSteady (s : State) : Prop where
  suits : ∀ (i : Nat) (c : Cycle) (l : Lifecycle), s.cycles[i]? = some c →
    s.lifecycle? c.place = some l → c.stage.Suits l.status
  one : ∀ p i k, s.IsUnderWayAt p i → s.IsUnderWayAt p k → i = k

theorem IsSteady.not_allows (h : s.IsSteady) (underWay : s.IsUnderWayAt p i)
    (hl : s.lifecycle? p = some l) : l.status.allows .starting = false := by
  obtain ⟨c, hc, rfl, begun, going⟩ := underWay
  exact (h.suits i c l hc hl).not_allows ⟨begun, going⟩

/-- A step of a cycle leaves the status fitting for every cycle. -/
theorem CycleStep.isSteady (h : CycleStep S i c s t) (meek : S.IsMeek)
    (hc : s.cycles[i]? = some c) (hf : s.Fits S) (steady : s.IsSteady) : t.IsSteady := by
  obtain ⟨l, hl⟩ := hf.exists_lifecycle (hf.cycles i c hc)
  have suits := steady.suits i c l hc hl
  obtain ⟨c', l', hc', place, hl', drives⟩ := h.drives meek hc hl suits
  obtain ⟨others, elsewhere⟩ := h.frame
  -- Beside another cycle under way it neither begins nor is under way itself.
  have alone : ∀ k, k ≠ i → s.IsUnderWayAt c.place k → l' = l ∧ ¬ c'.stage.IsUnderWay := by
    intro k ne underWay
    refine drives.apart (fun ⟨begun, going⟩ ↦ ?_) (steady.not_allows underWay hl)
    exact ne (steady.one c.place k i underWay ⟨c, hc, rfl, begun, going⟩)
  refine ⟨fun k e m he hm ↦ ?_, fun p j k hj hk ↦ ?_⟩
  · by_cases own : k = i
    · subst own
      rw [hc'] at he
      cases he
      rw [place, hl'] at hm
      cases hm
      exact drives.suits suits
    · rw [others k own] at he
      by_cases here : e.place = c.place
      · rw [here, hl'] at hm
        cases hm
        by_cases underWay : e.stage.IsUnderWay
        · rw [(alone k own ⟨e, he, here, underWay.1, underWay.2⟩).1]
          exact steady.suits k e l he (here ▸ hl)
        · exact .of_not_underWay underWay
      · rw [elsewhere _ here] at hm
        exact steady.suits k e m he hm
  · have before : ∀ {k}, k ≠ i → t.IsUnderWayAt p k → s.IsUnderWayAt p k := by
      rintro k ne ⟨e, he, underWay⟩
      exact ⟨e, others k ne ▸ he, underWay⟩
    have beside : ∀ {k}, k ≠ i → t.IsUnderWayAt p k → ¬ t.IsUnderWayAt p i := by
      rintro k ne hk ⟨e, he, here, underWay⟩
      rw [hc'] at he
      cases he
      have there := before ne hk
      rw [← here, place] at there
      exact (alone k ne there).2 underWay
    by_cases hj' : j = i
    · by_cases hk' : k = i
      · exact hj'.trans hk'.symm
      · exact absurd (hj' ▸ hj) (beside hk' hk)
    · by_cases hk' : k = i
      · exact absurd (hk' ▸ hk) (beside hj' hj)
      · exact steady.one p j k (before hj' hj) (before hk' hk)

end State

section Run

variable {S : Setup} {admits : Deed → Prop} {who : Option Task} {s s' : State} {p : Nat}

/-- Nobody but a cycle changes a status, or makes a resource fail. -/
theorem Change.lifecycle_of_other (h : Change S admits who s s') (meek : Deed.IsMeek admits)
    (other : ∀ i, who ≠ some (.cycle i)) {l' : Lifecycle} (hl' : s'.lifecycle? p = some l') :
    ∃ l, s.lifecycle? p = some l ∧ l'.status = l.status ∧ l'.failures = l.failures := by
  unfold State.lifecycle? at hl' ⊢
  rcases h.lifecycles with e | ⟨place, m, l, l₁, published, hl, hm, e, -, ⟨i, own⟩ | ⟨-, admitted⟩⟩
  · exact ⟨l', e ▸ hl', rfl, rfl⟩
  · exact absurd own (other i)
  · rw [e, Array.getElem?_setIfInBounds] at hl'
    split at hl'
    · rename_i here
      subst here
      split at hl'
      · cases hl'
        rcases Lifecycle.mark_eq_ok hm with ⟨-, -, status, failures⟩ | ⟨target, some, -⟩
        · exact ⟨l, hl, status, failures⟩
        · rw [meek place m admitted] at some
          cases some
      · cases hl'
    · exact ⟨l', hl', rfl, rfl⟩

theorem Change.isSteady (h : Change S admits who s s') (meek : Deed.IsMeek admits)
    (other : ∀ i, who ≠ some (.cycle i)) (steady : s.IsSteady) : s'.IsSteady where
  suits i c' l' hc' hl' := by
    obtain ⟨l, hl, status, -⟩ := h.lifecycle_of_other meek other hl'
    rcases h.cycle_of_other (other i) hc' with ⟨c, hc, place, same | ⟨isOver, -⟩⟩ | ⟨-, fresh⟩
    · rw [same, status]
      exact steady.suits i c l hc (place ▸ hl)
    · rw [isOver]
      trivial
    · rw [fresh]
      trivial
  one p i k hi hk := by
    have before : ∀ {k}, s'.IsUnderWayAt p k → s.IsUnderWayAt p k := by
      rintro k ⟨c', hc', rfl, begun, going⟩
      rcases h.cycle_of_other (other k) hc' with ⟨c, hc, place, same | ⟨isOver, -⟩⟩ | ⟨-, fresh⟩
      · exact ⟨c, hc, place.symm, same ▸ begun, same ▸ going⟩
      · exact absurd isOver going
      · exact absurd fresh begun
    exact steady.one p i k (before hi) (before hk)

/-- Every step leaves the status fitting. -/
theorem Step.isSteady (h : Step S admits s s') (hooks : S.IsMeek) (deeds : Deed.IsMeek admits)
    (ho : s.IsOrderly) (hf : s.Fits S) (steady : s.IsSteady) : s'.IsSteady := by
  rcases h.turn_or_changes ho (fun t ↦ ∃ i, t = .cycle i) with ⟨_, ⟨i, rfl⟩, rfl⟩ | ⟨who, other, hc⟩
  · cases hc : s.cycles[i]? with
    | none =>
      rw [State.step_cycle_of_none hc]
      exact steady
    | some c => exact (State.cycleStep_step hc).isSteady hooks hc hf steady
  · exact (hc.keeps (P := State.IsSteady)
      (fun _ steady change ↦ change.isSteady deeds (fun i ↦ other _ ⟨i, rfl⟩) steady) ho steady).2

theorem State.isSteady_initial (S : Setup) (bus : Bus) (recorder : Option Recorder) (now : Nat) :
    (State.initial S bus recorder now).IsSteady where
  suits _ c _ hc := absurd (Array.mem_of_getElem? hc) (Array.not_mem_empty c)
  one _ _ _ hi := by
    obtain ⟨c, hc, -⟩ := hi
    exact absurd (Array.mem_of_getElem? hc) (Array.not_mem_empty c)

/-- **Where everybody leaves the status alone, it fits at every moment.** -/
theorem Reaches.isSteady {bus : Bus} {recorder : Option Recorder} {now : Nat}
    (run : Reaches S admits (State.initial S bus recorder now) s) (hooks : S.IsMeek)
    (deeds : Deed.IsMeek admits) : s.IsSteady :=
  (run.keeps (P := fun t ↦ t.IsSound S ∧ t.IsSteady)
    (fun ht step ↦ ⟨step.isSound ht.1, step.isSteady hooks deeds ht.1.orderly ht.1.fits ht.2⟩)
    ⟨State.isSound_initial S bus recorder now, State.isSteady_initial S bus recorder now⟩).2

end Run

end Supervision
