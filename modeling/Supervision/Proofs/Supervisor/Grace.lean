import Supervision.Proofs.Supervisor.Cleanup

/-!
# One grace for all

All resources are stopped under one deadline, one after the other. So a resource that is served when
the shutdown is asked for, and that ends at once when it is told to, is cleaned up unless those
before it have used up the whole grace: then it is given up in the moment in which it is told, and
named (`serving_resource_is_cleaned_up`; `State.isFailing_crowded` is such a run).

From the shutdown to the stop nobody starts another cycle of it (`Step.isWaiting`), and during the
stop no time passes between the moment in which it is told to end and its end, because its cycle can
go on all that while (`Step.isBeingStopped`).
-/

namespace Supervision

variable {S : Setup} {admits : Deed → Prop} {who : Option Task} {s s' t : State} {p i : Nat}

namespace Change

/-! ### What others leave alone -/

/-- Only the host gives a cycle up. -/
theorem host_of_abort (h : Change S admits who s (s.abortCycle i)) : who = some .host := by
  have pushed : (s.abortCycle i).chronicle = s.chronicle.push ⟨s.now, .aborted i⟩ := rfl
  rcases h.enters_or with ⟨more, entered, such⟩ | ⟨e, -, same⟩
  · have one : more = [⟨s.now, .aborted i⟩] := by
      rw [pushed] at entered
      have lists := congrArg Array.toList entered
      simpa using lists.symm
    subst one
    exact (such _ List.mem_cons_self).2
  · have chronicles := congrArg State.chronicle same
    rw [pushed] at chronicles
    have entries := congrArg Array.back? chronicles
    simp [State.publish, State.enter] at entries

/-- While no restart of a resource waits for a cycle and the shutdown has begun, its current cycle
is left to the host. -/
theorem run?_stays (h : Change S admits who s s') (other : who ≠ some .host)
    (asked : s.isRequested = true) (calm : ∀ j c : Nat, s.restarts[j]? ≠ some ⟨p, .joining c⟩) :
    s'.run? p = s.run? p := by
  cases h with
  | mark hm own => exact State.run?_of_members (by rw [State.mark_frame hm]) p
  | begin hc fresh hm => exact State.run?_of_members (by rw [State.mark_frame hm]; rfl) p
  | request c => exact State.run?_of_members (by rw [State.request_frame]) p
  | count place => exact State.run?_modifyMember _ place (by intro; rfl) p
  | spawn hh hp => exact absurd rfl other
  | close hr => exact absurd rfl other
  | heed resource reason =>
    have same : (s.onFailed S resource reason).state = s := by
      unfold State.onFailed
      rw [if_pos asked]
    rw [same]
  | @release j place _ stage hr waits due =>
    have ends : s.release j place =
        (s.setAccount place (s.account place).release).endRestart j := by
      unfold State.release
      exact if_pos asked
    rw [ends]
    exact State.run?_setAccount _ _ p
  | @respawn j place c _ hr gone =>
    have ne : p ≠ place := fun same ↦ calm j c (same ▸ hr)
    unfold State.respawn
    split
    · rfl
    · exact State.run?_startCycle_of_ne ne
  | confirm hc hr hb =>
    unfold State.confirm State.tellRecovery
    split
    · dsimp only
      split <;> exact State.run?_setAccount _ _ p
    · rfl
  | _ => rfl

/-- Once the shutdown has begun, the last cycle of a resource remains its last. -/
theorem isLast (h : Change S admits who s s') (asked : who = some .host ∨ s.isRequested = true)
    (begun : who = some .host → s.host ≠ .fresh) (hf : s.Fits S) (last : s.IsLast p i) :
    s'.IsLast p i where
  alone k hk := by
    rcases h.isGoing_before hf begun hk with old | ⟨-, -, j, rfl, starts⟩
    · exact last.alone k old
    · have requested : s.isRequested = true := asked.resolve_left nofun
      cases starts with
      | due hr due here => rw [requested] at here; cases here
      | joined hr => exact absurd hr (last.calm j _)
  calm j c hr := by
    rcases h.joining_before hr with old | ⟨rfl, current, none⟩
    · exact last.calm j c old
    · have requested : s.isRequested = true := asked.resolve_left nofun
      rw [h.run?_stays nofun requested last.calm, current] at none
      cases none

/-- What was told to end stays so. -/
theorem isToldToEnd (h : Change S admits who s s') (told : s.IsToldToEnd i) : s'.IsToldToEnd i := by
  obtain ⟨c, hc, cancelled⟩ := told
  rcases h.cycles with e | ⟨place, e, -⟩ | ⟨k, stage, e, -⟩ | ⟨k, e⟩
  · exact ⟨c, by rw [e, hc], cancelled⟩
  · refine ⟨c, ?_, cancelled⟩
    rw [e, Array.getElem?_push, if_neg (Nat.ne_of_lt (Array.getElem?_eq_some_iff.1 hc).1), hc]
  · by_cases same : k = i
    · subst same
      exact ⟨{ c with stage := stage }, by rw [e]; exact State.getElem?_setCycle_self stage hc,
        cancelled⟩
    · exact ⟨c, by rw [e]; exact (State.getElem?_setCycle_of_ne stage (Ne.symm same)).trans hc,
        cancelled⟩
  · rw [State.IsToldToEnd, e]
    by_cases same : k = i
    · exact ⟨_, by rw [State.getElem?_cancelCycle, if_pos same, hc]; rfl, rfl⟩
    · exact ⟨c, by rw [State.getElem?_cancelCycle, if_neg same, hc], cancelled⟩

/-- Neither cycles nor the host: whoever else does something leaves a resource in hand that nobody
outside may mark. -/
theorem inHand_of_other (h : Change S admits who s s') (host : who ≠ some .host)
    (cycles : ∀ k, who ≠ some (.cycle k)) (unmarked : ∀ m, ¬ admits (.mark p m))
    (hand : s.IsInHand p i) : s'.IsInHand p i := by
  refine hand.congr (fun c hc ↦ ?_) ?_ fun x hx ↦ ?_
  · obtain ⟨c', hc', place, same | ⟨-, ⟨own, -⟩ | ⟨-, -, rfl⟩⟩⟩ := h.cycle_after hc
    · exact ⟨c', hc', place, same⟩
    · exact absurd own (cycles i)
    · exact absurd h.host_of_abort host
  · unfold State.lifecycle?
    rcases h.lifecycles with same | ⟨place, m, l, l', published, -, -, e, -, ⟨k, own⟩ | ⟨-, may⟩⟩
    · rw [same]
    · exact absurd own (cycles k)
    · have ne : place ≠ p := fun same ↦ unmarked m (same ▸ may)
      rw [e, Array.getElem?_setIfInBounds_ne ne]
  · obtain ⟨more, chronicle⟩ := h.grows.chronicle
    rw [chronicle]
    exact Array.mem_append_left _ hx

end Change

/-! ### Steps -/

/-- **The cycle that serves an obliging resource is past its start hook until it is through**,
whoever but the host takes a step. -/
theorem Step.inHand (h : Step S admits s s') (ho : s.IsOrderly) (yields : s.Yields p)
    (alone : ∀ k, s.IsGoing p k → k = i) (unmarked : ∀ m, ¬ admits (.mark p m))
    (hand : s.IsInHand p i) : s' = s.stepHost S ∨ s'.IsInHand p i := by
  rcases h.turn_or_changes ho (fun t ↦ t = .host ∨ ∃ k, t = .cycle k) with
    ⟨t, rfl | ⟨k, rfl⟩, rfl⟩ | ⟨who, other, chain⟩
  · exact .inl rfl
  · refine .inr ?_
    by_cases own : k = i
    · subst own
      exact State.inHand_step hand yields
    cases hc : s.cycles[k]? with
    | none =>
      rw [State.step_cycle_of_none hc]
      exact hand
    | some c =>
      have step : State.CycleStep S k c s (s.step S (.cycle k)) := State.cycleStep_step hc
      by_cases place : c.place = p
      · have gone : c.stage = .finished :=
          Classical.byContradiction fun going ↦ own (alone k ⟨c, hc, place, going⟩)
        rw [State.step_finished hc gone]
        exact hand
      · refine hand.congr (fun b hb ↦ ⟨b, ?_, rfl, rfl⟩) (step.frame.2 p (Ne.symm place)) ?_
        · exact (step.frame.1 i (Ne.symm own)).trans hb
        · obtain ⟨more, chronicle⟩ := (State.grows_step S (.cycle k) s).chronicle
          intro x hx
          rw [chronicle]
          exact Array.mem_append_left _ hx
  · refine .inr ?_
    clear h
    induction chain with
    | refl => exact hand
    | tail _ last ih =>
      exact last.inHand_of_other (other _ (.inl rfl)) (fun k ↦ other _ (.inr ⟨k, rfl⟩)) unmarked ih

/-- Nobody asks for another run, so the host does not begin anew. -/
theorem Change.host_ne_fresh (h : Change S admits who s s') (alone : ¬ admits .call)
    (begun : s.host ≠ .fresh) : s'.host ≠ .fresh := by
  rcases h.host with same | ⟨-, begun', -⟩ | ⟨-, ⟨-, absent⟩ | ⟨may, -⟩⟩
  · rw [same]
    exact begun
  · exact begun'
  · rw [absent]
    nofun
  · exact absurd may alone

/-- Once the shutdown has begun, or when it is the host who acts, a chain of changes keeps the last
cycle of a resource its last. -/
theorem Changes.isLast (h : Changes S admits who s s') (ho : s.IsOrderly) (alone : ¬ admits .call)
    (asked : who = some .host ∨ s.isRequested = true) (begun : s.host ≠ .fresh) (hf : s.Fits S)
    (last : s.IsLast p i) : s'.Fits S ∧ s'.IsLast p i := by
  have kept := h.keeps (P := fun t ↦ (t.Fits S ∧ t.IsLast p i) ∧ t.host ≠ .fresh ∧
      (who = some .host ∨ t.isRequested = true))
    (fun _ ⟨⟨fits, last⟩, begun, asked⟩ change ↦
      ⟨⟨change.fits fits, change.isLast asked (fun _ ↦ begun) fits last⟩,
        change.host_ne_fresh alone begun, asked.imp_right change.isRequested⟩)
    ho ⟨⟨hf, last⟩, begun, asked⟩
  exact kept.2.1

theorem Changes.run?_stays (h : Changes S admits who s s') (ho : s.IsOrderly)
    (alone : ¬ admits .call) (other : who ≠ some .host) (asked : s.isRequested = true)
    (begun : s.host ≠ .fresh) (hf : s.Fits S) (last : s.IsLast p i) : s'.run? p = s.run? p := by
  have kept := h.keeps (P := fun t ↦ ((t.Fits S ∧ t.IsLast p i) ∧ t.host ≠ .fresh ∧
      t.isRequested = true) ∧ t.run? p = s.run? p)
    (fun _ ⟨⟨⟨fits, last⟩, begun, asked⟩, same⟩ change ↦
      ⟨⟨⟨change.fits fits, change.isLast (.inr asked) (fun _ ↦ begun) fits last⟩,
        change.host_ne_fresh alone begun, change.isRequested asked⟩,
        (change.run?_stays other asked last.calm).trans same⟩)
    ho ⟨⟨⟨hf, last⟩, begun, asked⟩, rfl⟩
  exact kept.2.2

/-! ### From the shutdown to the stop -/

namespace State

/-- The resource in place `p` is running, and is served by cycle `i`, its current one, beside which
nothing of it goes on. -/
structure IsServedBy (p i : Nat) (s : State) : Prop where
  running : s.ensemble.status? p = some .running
  current : s.run? p = some i
  served : s.IsPastStart i
  last : s.IsLast p i

/-- What is always known of a supervisor with an obliging resource whose last cycle goes on. -/
structure IsTended (S : Setup) (p i : Nat) (s : State) : Prop where
  orderly : s.IsOrderly
  fits : s.Fits S
  yields : s.Yields p
  last : s.IsLast p i

theorem IsServedBy.isInHand (h : s.IsServedBy p i) (hf : s.Fits S) : s.IsInHand p i := by
  obtain ⟨l, hl, running⟩ := Option.map_eq_some_iff.1 h.running
  exact ⟨hf.runs p i h.current, ⟨l, hl, by rw [running]; nofun⟩, .inl h.served⟩

/-- The shutdown has begun, the stop has not, and the resource in place `p` is in hand. -/
structure IsWaiting (S : Setup) (p i : Nat) (s : State) : Prop where
  serving : ∃ watcher hasRelay, s.host = .serving watcher hasRelay
  asked : s.isRequested = true
  current : s.run? p = some i
  hand : s.IsInHand p i
  tended : s.IsTended S p i

/-- The stop goes on, up to a deadline, and so does what the resource in place `p` is due. -/
structure IsBeingStopped (S : Setup) (p i deadline : Nat) (s : State) : Prop where
  due : ∃ run left, s.host = .stopping run deadline left ∧ IsDue S p i true run deadline left s
  tended : s.IsTended S p i

/-- When the stop begins, nobody waits for the shutdown any more. -/
theorem isBeforeStop_beginStop (watcher : Nat) (hasRelay : Bool) :
    (s.beginStop S watcher hasRelay).host.isBeforeStop = false := by
  have ends : (s.beginStop S watcher hasRelay).host = _ ∨ _ := beginStop_outcome
  rcases ends with gone | ⟨run, deadline, -, outcome⟩
  · rw [gone]
    rfl
  · cases outcome with
    | waits later early host =>
      rw [host]
      rfl
    | ends final host =>
      rw [host]
      rfl

end State

theorem Step.isToldToEnd (h : Step S admits s s') (ho : s.IsOrderly) (told : s.IsToldToEnd i) :
    s'.IsToldToEnd i := by
  obtain ⟨who, chain⟩ := h.changes ho
  exact (chain.keeps (P := fun t ↦ t.IsToldToEnd i)
    (fun _ told change ↦ change.isToldToEnd told) ho told).2

theorem Step.isTended (h : Step S admits s s') (obliging : S.IsObligingAt p)
    (alone : ¬ admits .call) (asked : s' = s.stepHost S ∨ s.isRequested = true)
    (begun : s.host ≠ .fresh) (hs : s.IsTended S p i) : s'.IsTended S p i := by
  have kept : s'.Fits S ∧ s'.IsLast p i := by
    rcases asked with rfl | asked
    · have chain : Changes S admits (some .host) s (s.stepHost S) :=
        State.changes_step .host s hs.orderly
      exact chain.isLast hs.orderly alone (.inl rfl) begun hs.fits hs.last
    · obtain ⟨who, chain⟩ := h.changes hs.orderly
      exact chain.isLast hs.orderly alone (.inr asked) begun hs.fits hs.last
  exact ⟨h.isOrderly hs.orderly, kept.1, h.yields obliging hs.orderly hs.yields, kept.2⟩

/-- **From the shutdown on the resource is in hand**, up to the step with which the stop begins. -/
theorem Step.isWaiting (h : Step S admits s s') (obliging : S.IsObligingAt p)
    (alone : ¬ admits .call) (kept : ¬ admits .abandon) (unmarked : ∀ m, ¬ admits (.mark p m))
    (hs : s.IsWaiting S p i) : s'.IsWaiting S p i ∨ s'.host.isBeforeStop = false := by
  obtain ⟨watcher, hasRelay, serving⟩ := hs.serving
  have ho := hs.tended.orderly
  have begun : s.host ≠ .fresh := by
    rw [serving]
    nofun
  have begins : (s.stepHost S).host.isBeforeStop = false := by
    rw [State.stepHost_of_serving serving (.inl hs.asked)]
    exact State.isBeforeStop_beginStop watcher hasRelay
  rcases h.inHand ho hs.tended.yields hs.tended.last.alone unmarked hs.hand with rfl | hand
  · exact .inr begins
  rcases h.turn_or_changes ho (· = .host) with ⟨t, rfl, rfl⟩ | ⟨who, other, chain⟩
  · exact .inr begins
  have noHost : who ≠ some .host := other .host rfl
  refine .inl ⟨⟨watcher, hasRelay, ?_⟩, ?_, ?_, hand, ?_⟩
  · rw [chain.host_of_other alone kept noHost, serving]
  · exact (chain.keeps (P := fun t ↦ t.isRequested = true) (fun _ asked change ↦
      change.isRequested asked) ho hs.asked).2
  · rw [chain.run?_stays ho alone noHost hs.asked begun hs.tended.fits hs.tended.last, hs.current]
  · exact h.isTended obliging alone (.inr hs.asked) begun hs.tended

/-! ### The stop -/

namespace State

/-- A cycle of an obliging resource that was told to end, and has not, can go on. -/
theorem isEnabled_of_isToldToEnd (tended : s.IsTended S p i) (hand : s.IsInHand p i)
    (told : s.IsToldToEnd i) (going : ¬ s.cycleIsOver i = true) :
    s.isEnabled (.cycle i) = true := by
  rcases hand.stands with ⟨c, hook, acts, wake, exit, hc, inside, past⟩ | through
  · obtain ⟨d, hd, cancelled⟩ := told
    rw [hc] at hd
    cases hd
    obtain ⟨d, hd, place⟩ := hand.here
    rw [hc] at hd
    cases hd
    exact cycleIsEnabled_of_yields hc inside past (tended.yields i c hc place) cancelled
  · exact absurd through.gone going

/-- What is due stays so while others go on, and no time passes before the cycle that was told to
end has ended. -/
theorem IsDue.goOn {run : Shutting} {deadline : Nat} {left : List (Nat × Nat)}
    (due : IsDue S p i true run deadline left s) (hand : s'.IsInHand p i)
    (told : s.IsToldToEnd i → s'.IsToldToEnd i)
    (gone : s.cycleIsOver i = true → s'.cycleIsOver i = true)
    (now : s.IsToldToEnd i → ¬ s.cycleIsOver i = true → s'.now = s.now) :
    IsDue S p i true run deadline left s' := by
  refine ⟨due.unnamed, hand, due.apart, ?_⟩
  rcases due.stands with listed | ⟨_, first, isTold, early⟩ | isOver
  · exact .inl listed
  · refine .inr (.inl ⟨rfl, first, told isTold, ?_⟩)
    by_cases isOver : s.cycleIsOver i = true
    · exact .inl (gone isOver)
    · exact .inr (now isTold isOver ▸ early.resolve_left isOver)
  · exact .inr (.inr (gone isOver))

end State

/-- **While the stop goes on, so does what a resource is due.** -/
theorem Step.isBeingStopped {deadline : Nat} (h : Step S admits s s') (obliging : S.IsObligingAt p)
    (alone : ¬ admits .call) (kept : ¬ admits .abandon) (unmarked : ∀ m, ¬ admits (.mark p m))
    (hs : s.IsBeingStopped S p i deadline) :
    s'.IsBeingStopped S p i deadline ∨ s'.host.isAfterStop = true := by
  obtain ⟨run, left, host, due⟩ := hs.due
  have ho := hs.tended.orderly
  have begun : s.host ≠ .fresh := by
    rw [host]
    nofun
  have asked : s.isRequested = true := ho.requested (ho.stopping run deadline left host)
  have tended := h.isTended obliging alone (.inr asked) begun hs.tended
  have served : s' = s.stepHost S →
      s'.IsBeingStopped S p i deadline ∨ s'.host.isAfterStop = true := by
    rintro rfl
    have outcome := State.stopFrom_isDue left true run s due
    rw [← State.stepHost_of_stopping host] at outcome
    cases outcome with
    | waits host due => exact .inl ⟨⟨_, _, host, due⟩, tended⟩
    | cleaned host => exact .inr (by rw [host]; rfl)
    | late host => exact .inr (by rw [host]; rfl)
  rcases h.inHand ho hs.tended.yields hs.tended.last.alone unmarked due.hand with own | hand
  · exact served own
  obtain ⟨who, chain⟩ := h.changes ho
  have told : s.IsToldToEnd i → s'.IsToldToEnd i := h.isToldToEnd ho
  have gone : s.cycleIsOver i = true → s'.cycleIsOver i = true := by
    intro isOver
    obtain ⟨c, hc, -⟩ := due.hand.here
    have kept := (chain.keeps (P := fun t ↦ ∃ c, t.cycles[i]? = some c ∧ t.cycleIsOver i = true)
      (fun _ ⟨c, hc, isOver⟩ change ↦
        let ⟨c', hc', _⟩ := change.cycle_after hc
        ⟨c', hc', change.cycleIsOver hc isOver⟩) ho ⟨c, hc, isOver⟩).2
    exact kept.choose_spec.2
  -- The cycle that was told to end can go on, so time passes only when it has ended.
  have now : s.IsToldToEnd i → ¬ s.cycleIsOver i = true → s'.now = s.now := by
    intro isTold going
    cases h with
    | turn t _ =>
      have chain : Changes S admits (some t) s (s.step S t) := State.changes_step t s ho
      exact chain.now
    | deed d _ => exact State.now_undergo d s
    | pass moment later idle _ =>
      have enabled := State.isEnabled_of_isToldToEnd hs.tended due.hand isTold going
      rw [idle] at enabled
      cases enabled
  rcases h.host_cases alone kept ho with ⟨own, -⟩ | ⟨same, -⟩ | ⟨moment, rfl, -⟩
  · exact served own
  · exact .inl ⟨⟨run, left, same.trans host, due.goOn hand told gone now⟩, tended⟩
  · exact .inl ⟨⟨run, left, host, due.goOn hand told gone now⟩, tended⟩

namespace State

/-- Where no two resources share a name, no other resource has the name of the one in place `p`. -/
theorem nameAt_ne (distinct : S.names.Nodup) {q : Nat} (hp : p < S.posts.size)
    (hq : q < S.posts.size) (ne : q ≠ p) : S.nameAt q ≠ S.nameAt p := by
  have name {k : Nat} (hk : k < S.posts.size) : S.place? (S.nameAt k) = some k := by
    have here : S.posts[k]? = some S.posts[k] := Array.getElem?_eq_getElem hk
    have same : S.nameAt k = S.posts[k].name := by
      rw [Setup.nameAt, here]
      rfl
    rw [same]
    exact Setup.place?_name distinct here
  intro same
  have places := name hq
  rw [same, name hp] at places
  exact ne (Option.some.inj places).symm

/-- When the stop begins, the resource in place `p` is due to be told to end. -/
theorem isDue_currentCycles {e : State} {run : Shutting} (deadline : Nat)
    (distinct : S.names.Nodup) (hf : s.Fits S) (current : s.run? p = some i)
    (runs : ∀ q, e.run? q = s.run? q) (clean : run.stuck = []) (hand : t.IsInHand p i) :
    IsDue S p i false run deadline e.currentCycles t where
  unnamed := by
    rw [clean]
    exact List.not_mem_nil
  hand := hand
  apart x hx := by
    obtain ⟨q, k⟩ := x
    have at_q : s.run? q = some k := runs q ▸ mem_currentCycles.1 hx
    obtain ⟨c, hc, place⟩ := hf.runs q k at_q
    obtain ⟨d, hd, place'⟩ := hf.runs p i current
    refine ⟨?_, ?_, nameAt_ne distinct (place' ▸ hf.cycles i d hd) (place ▸ hf.cycles k c hc)⟩
    · rintro rfl
      rw [hc] at hd
      cases hd
      exact place.symm.trans place'
    · rintro rfl
      rw [current] at at_q
      exact (Option.some.inj at_q).symm
  stands := .inl (mem_currentCycles.2 ((runs p).trans current))

theorem IsInHand.request (h : s.IsInHand p i) (c : Cause) : (s.request c).2.IsInHand p i := by
  refine h.congr (fun b hb ↦ ⟨b, ?_, rfl, rfl⟩) (lifecycle?_request c p) fun x hx ↦ ?_
  · rw [request_frame]
    exact hb
  · obtain ⟨more, chronicle⟩ := (grows_request c s).chronicle
    rw [chronicle]
    exact Array.mem_append_left _ hx

/-- What the first step of a stop comes to for a resource in hand. -/
theorem beginStop_served (watcher : Nat) (hasRelay : Bool) (distinct : S.names.Nodup)
    (hf : s.Fits S) (current : s.run? p = some i) (hand : s.IsInHand p i) :
    (s.beginStop S watcher hasRelay).host = .finished (.panicked deadlineOverflow) ∨
      ∃ left u, u.now = s.now ∧
        Served S p i false (s.now + S.settings.grace.millisUp) left u
          (s.beginStop S watcher hasRelay) := by
  have heard : s.hear.IsInHand p i := by
    unfold hear
    split
    · exact hand
    · exact hand.request _
  have runs : ∀ q, s.hear.run? q = s.run? q := run?_of_members (by rw [hear_frame])
  have closed : s.hear.close.IsInHand p i :=
    heard.congr (fun b hb ↦ ⟨b, hb, rfl, rfl⟩) rfl fun _ hx ↦ hx
  cases far : S.settings.grace.isBeyondClocks with
  | true =>
    rw [beginStop_of_far far]
    exact .inl rfl
  | false =>
    have now : s.hear.now = s.now := by rw [hear_frame]
    rw [beginStop_of_near far, ← currentCycles_hear]
    exact .inr ⟨_, s.hear.close, now, stopFrom_isDue _ false _ _
      (isDue_currentCycles _ distinct hf current runs rfl closed)⟩

/-- The host has not yet told a cycle to end, of those that it stops one after the other: the stop
has not begun, or it waits for one before. -/
def IsYetToTell (p i : Nat) (s : State) : Prop :=
  ∀ run deadline left, s.host = .stopping run deadline left → (p, i) ∈ left.tail

/-- The stop hook of cycle `i` was run, and the resource in place `p` is settled. -/
structure IsCleanedUp (p i : Nat) (s : State) : Prop where
  stopped : ∃ x ∈ s.chronicle, ∃ exit, x.what = .returned i .stop exit
  settled : ∃ status, s.ensemble.status? p = some status ∧ status.isTerminal = true

theorem IsThrough.isCleanedUp (h : s.IsThrough p i) : s.IsCleanedUp p i := by
  obtain ⟨l, hl, terminal⟩ := h.settled
  exact ⟨h.stopped, l.status, (congrArg (Option.map Lifecycle.status) hl :), terminal⟩

/-- What has come of a stop that is over. -/
theorem Served.of_ended {told : Bool} {deadline : Nat} {left : List (Nat × Nat)} {final : Shutting}
    (h : Served S p i told deadline left s t) (ended : t.host = .joiningWatcher final) :
    (S.nameAt p ∉ final.stuck ∧ t.IsCleanedUp p i) ∨
      (S.nameAt p ∈ final.stuck ∧ ((p, i) ∈ if told = true then left.tail else left) ∧
        deadline ≤ s.now) := by
  cases h with
  | waits host =>
    rw [ended] at host
    cases host
  | cleaned host unnamed through =>
    rw [ended] at host
    cases host
    exact .inl ⟨unnamed, through.isCleanedUp⟩
  | late host named past untold =>
    rw [ended] at host
    cases host
    exact .inr ⟨named, untold, past⟩

end State

/-- What is done while a run stops: nobody asks for another or gives it up, and nobody outside marks
the resource in place `p`. -/
def Deed.IsApart (p : Nat) (d : Deed) : Prop := d ≠ .call ∧ d ≠ .abandon ∧ ∀ m, d ≠ .mark p m

/-- Where the host stands is up to the host, as long as nobody asks for a run or gives it up. -/
theorem Step.host_of (h : Step S admits s s') (ho : s.IsOrderly) (alone : ¬ admits .call)
    (kept : ¬ admits .abandon) : s' = s.stepHost S ∨ s'.host = s.host := by
  rcases h.host_cases alone kept ho with ⟨own, -⟩ | ⟨same, -⟩ | ⟨moment, rfl, -⟩
  · exact .inl own
  · exact .inr same
  · exact .inr rfl

/-- From the shutdown on, the resource is in hand until the stop begins. -/
theorem Reaches.isWaiting {q : State} (run : Reaches S (Deed.IsApart p) q s)
    (obliging : S.IsObligingAt p) (hq : q.IsWaiting S p i) :
    s.IsOrderly ∧ (s.IsWaiting S p i ∨ s.host.isBeforeStop = false) := by
  refine Reaches.keeps
    (P := fun s ↦ s.IsOrderly ∧ (s.IsWaiting S p i ∨ s.host.isBeforeStop = false))
    (fun {s s'} ⟨ho, hs⟩ step ↦ ⟨step.isOrderly ho, ?_⟩) run ⟨hq.tended.orderly, .inl hq⟩
  have alone : ¬ Deed.IsApart p .call := fun h ↦ h.1 rfl
  have kept : ¬ Deed.IsApart p .abandon := fun h ↦ h.2.1 rfl
  rcases hs with waiting | begun
  · exact step.isWaiting obliging alone kept (fun m h ↦ h.2.2 m rfl) waiting
  · refine .inr (Bool.eq_false_iff.2 fun before ↦ ?_)
    rcases step.host_of ho alone kept with rfl | same
    · rw [State.isBeforeStop_of_stepHost before] at begun
      cases begun
    · rw [← same, before] at begun
      cases begun

/-- Once the stop has begun, the resource is due until the stop is over. -/
theorem Reaches.isBeingStopped {d : State} {deadline : Nat}
    (run : Reaches S (Deed.IsApart p) d s) (obliging : S.IsObligingAt p) (ho : d.IsOrderly)
    (hd : d.IsBeingStopped S p i deadline ∨ d.host.isAfterStop = true) :
    s.IsBeingStopped S p i deadline ∨ s.host.isAfterStop = true := by
  have both := Reaches.keeps
    (P := fun s ↦ s.IsOrderly ∧ (s.IsBeingStopped S p i deadline ∨ s.host.isAfterStop = true))
    (fun {s s'} ⟨ho, hs⟩ step ↦ ⟨step.isOrderly ho, ?_⟩) run ⟨ho, hd⟩
  · exact both.2
  have alone : ¬ Deed.IsApart p .call := fun h ↦ h.1 rfl
  have kept : ¬ Deed.IsApart p .abandon := fun h ↦ h.2.1 rfl
  rcases hs with going | gone
  · exact step.isBeingStopped obliging alone kept (fun m h ↦ h.2.2 m rfl) going
  · refine .inr ?_
    rcases step.host_of ho alone kept with rfl | same
    · exact State.isAfterStop_stepHost gone
    · rw [same]
      exact gone

/-- When the stop begins, the resource is still in the hands of its current cycle. -/
theorem State.IsServedBy.atBeginning {bus : Bus} {recorder : Option Recorder} {now : Nat}
    {q d : State} {watcher : Nat} {hasRelay : Bool} (served : q.IsServedBy p i)
    (obliging : S.IsObligingAt p)
    (before : Reaches S (fun _ ↦ True) (State.initial S bus recorder now) q)
    (serving : q.host = .serving watcher hasRelay) (asked : q = d ∨ q.isRequested = true)
    (between : Reaches S (Deed.IsApart p) q d) (begins : d.host = .serving watcher hasRelay) :
    d.run? p = some i ∧ d.IsInHand p i ∧ d.IsTended S p i := by
  obtain ⟨orderly, fits⟩ := before.fits
  have tended : q.IsTended S p i := ⟨orderly, fits, before.yields obliging, served.last⟩
  rcases asked with rfl | asked
  · exact ⟨served.current, served.isInHand fits, tended⟩
  · have waiting : q.IsWaiting S p i :=
      ⟨⟨watcher, hasRelay, serving⟩, asked, served.current, served.isInHand fits, tended⟩
    rcases (between.isWaiting obliging waiting).2 with waiting | begun
    · exact ⟨waiting.current, waiting.hand, waiting.tended⟩
    · rw [begins] at begun
      cases begun

/-- **A resource that ends when it is told to is cleaned up, unless the grace was used up before the
host told it to end.** The shutdown was asked for in `q`, or is in `d`, while the resource in place
`p` is running and served by cycle `i`; the stop begins in `d`, and ends with a step from `t`. Then
the resource is not named and has run its stop hook and settled, or the host had not told it to end
before that last step, and the deadline that all resources share was over. -/
theorem serving_resource_is_cleaned_up {bus : Bus} {recorder : Option Recorder} {now : Nat}
    {q d : State} {watcher : Nat} {hasRelay : Bool} {final : Shutting}
    (distinct : S.names.Nodup) (obliging : S.IsObligingAt p)
    (before : Reaches S (fun _ ↦ True) (State.initial S bus recorder now) q)
    (served : q.IsServedBy p i) (serving : q.host = .serving watcher hasRelay)
    (asked : q = d ∨ q.isRequested = true) (between : Reaches S (Deed.IsApart p) q d)
    (begins : d.host = .serving watcher hasRelay)
    (due : d.isRequested = true ∨ d.signalled = true)
    (during : t = d ∨ Reaches S (Deed.IsApart p) (d.stepHost S) t ∧ t.host.isBeforeEnd = true)
    (ended : (t.stepHost S).host = .joiningWatcher final) :
    (S.nameAt p ∉ final.stuck ∧ (t.stepHost S).IsCleanedUp p i) ∨
      (S.nameAt p ∈ final.stuck ∧ t.IsYetToTell p i ∧
        d.now + S.settings.grace.millisUp ≤ t.now) := by
  obtain ⟨current, hand, tended⟩ :=
    served.atBeginning obliging before serving asked between begins
  have first := State.beginStop_served watcher hasRelay distinct tended.fits current hand
  rw [← State.stepHost_of_serving begins due] at first
  rcases during with rfl | ⟨run, going⟩
  -- The stop ends with its first step.
  · rcases first with panicked | ⟨left, u, now, outcome⟩
    · rw [ended] at panicked
      cases panicked
    · refine (outcome.of_ended ended).imp_right fun ⟨named, _, past⟩ ↦ ⟨named, ?_, now ▸ past⟩
      intro run deadline left stopping
      rw [begins] at stopping
      cases stopping
  -- It goes on for a while.
  · have enabled : d.isEnabled .host = true := State.isEnabled_of_serving begins due
    have step : Step S (Deed.IsApart p) d (d.stepHost S) := .turn .host enabled
    have begun : d.host ≠ .fresh := by
      rw [begins]
      nofun
    have tended' := step.isTended obliging (fun h ↦ h.1 rfl) (.inl rfl) begun tended
    have stopping : (d.stepHost S).IsBeingStopped S p i (d.now + S.settings.grace.millisUp) ∨
        (d.stepHost S).host.isAfterStop = true := by
      rcases first with panicked | ⟨left, u, now, outcome⟩
      · exact .inr (by rw [panicked]; rfl)
      · cases outcome with
        | waits host due => exact .inl ⟨⟨_, _, host, due⟩, tended'⟩
        | cleaned host => exact .inr (by rw [host]; rfl)
        | late host => exact .inr (by rw [host]; rfl)
    rcases run.isBeingStopped obliging tended'.orderly stopping with
      ⟨⟨run, left, host, due⟩, -⟩ | gone
    · have outcome := State.stopFrom_isDue left true run t due
      rw [← State.stepHost_of_stopping host] at outcome
      refine (outcome.of_ended ended).imp_right fun ⟨named, untold, past⟩ ↦ ⟨named, ?_, past⟩
      intro run' deadline' left' stopping
      rw [host] at stopping
      cases stopping
      exact untold
    · cases host : t.host <;> simp_all [HostStage.isBeforeEnd, HostStage.isAfterStop]

/-- The shutdown of the obedient resource is asked for while it is served. -/
theorem State.isServedBy_obedientAsked : obedientAsked.IsServedBy 0 0 := by
  have cycles : obedientAsked.cycles =
      #[⟨0, false, .inside .serve [.untilCancelled] none .clean⟩] := by
    decide +kernel
  have restarts : obedientAsked.restarts = #[] := by decide +kernel
  refine ⟨by decide +kernel, by decide +kernel, ?_, ?_, ?_⟩
  · exact ⟨_, .serve, [.untilCancelled], none, .clean, by rw [cycles]; rfl, rfl, nofun⟩
  · rintro k ⟨c, hc, -, -⟩
    rw [cycles] at hc
    match k with
    | 0 => rfl
    | k + 1 => cases hc
  · intro j c waits
    rw [restarts] at waits
    cases waits

/-- One behaviour for every cycle, of which no act but those of the start hook is in the way. -/
theorem Setup.isObligingAt_of_forall {behaviour : Behaviour}
    (same : ∀ post, S.posts[p]? = some post → post.behaviour = fun _ ↦ behaviour)
    (serve : ∀ a ∈ behaviour.serve, a.YieldsIn .serve)
    (stop : ∀ a ∈ behaviour.stop, a.YieldsIn .stop) : S.IsObligingAt p := by
  intro post hp n hook past
  rw [same post hp]
  cases hook with
  | start => exact absurd rfl past
  | serve => exact serve
  | stop => exact stop

theorem Setup.isObligingAt_obedient : Setup.obedient.IsObligingAt 0 :=
  isObligingAt_of_forall (fun post hp ↦ by cases hp; rfl) (by simp [Act.YieldsIn]) (by simp)

/-- Alone, the obedient resource is cleaned up. -/
theorem obedient_is_cleaned_up :
    ∃ final, "a" ∉ final.stuck ∧
      (State.obedientEnded.stepHost .obedient).host = .joiningWatcher final ∧
      (State.obedientEnded.stepHost .obedient).IsCleanedUp 0 0 := by
  have before : Reaches .obedient (fun _ ↦ True) (State.atRest .obedient) State.obedientAsked :=
    State.reaches_play (.step (State.reaches_asked _ trivial) (.turn .host rfl)) (by decide +kernel)
      fun _ _ ↦ trivial
  have during : Reaches .obedient (Deed.IsApart 0) (State.obedientAsked.stepHost .obedient)
      State.obedientEnded := by
    refine State.reaches_play (.refl _) (by decide +kernel) fun e he ↦ ?_
    exact absurd he (by simp)
  have serving : State.obedientAsked.host = .serving 0 true := by decide +kernel
  have ended : (State.obedientEnded.stepHost .obedient).host =
      .joiningWatcher ⟨0, true, some (.requested "done"), none, none, []⟩ := by
    decide +kernel
  refine ⟨_, by decide, ended, ?_⟩
  rcases serving_resource_is_cleaned_up (by decide) Setup.isObligingAt_obedient before
    State.isServedBy_obedientAsked serving (.inl rfl) (.refl _) serving (.inl (by decide +kernel))
    (.inr ⟨during, by decide +kernel⟩) ended with clean | named
  · exact clean.2
  · exact absurd named.1 (by decide)

/-! ### A grace that another one uses up -/

/-- The obedient resource and, after it in start order, one that hangs. -/
def Setup.crowded : Setup where
  settings := obedient.settings
  posts := #[
    { name := "a", needs := [],
      behaviour := fun _ ↦ { serve := [.untilCancelled], stop := [.note "cleanup"] } },
    { name := "b", needs := [], behaviour := fun _ ↦ { serve := [.hang] } }]

namespace State

/-- The shutdown is asked for while both are served. -/
def crowdedAsked : State :=
  ((asked .crowded).stepHost .crowded).play .crowded
    (Cue.turns [(.cycle 0, 3), (.cycle 1, 3)] ++ [.deed (.request (.requested "done"))])

/-- The host waits for the one that hangs. -/
def crowdedStopping : State :=
  (crowdedAsked.stepHost .crowded).play .crowded (Cue.turns [(.watcher 0, 1), (.relay, 5)])

/-- The grace is over. -/
def crowdedLate : State := crowdedStopping.passTo 100

/-- A stop that fails a resource which was running when the shutdown was asked for, and which ends
when it is told to: it is named, its stop hook was never run, and it remains running. -/
structure IsFailing (S : Setup) (p : Nat) (d t : State) (final : Shutting) : Prop where
  obliging : S.IsObligingAt p
  grace : 0 < S.settings.grace.millisUp
  before : Reaches S (fun _ ↦ True) (atRest S) d
  running : d.ensemble.status? p = some .running
  stop : IsStop S d t final
  named : S.nameAt p ∈ final.stuck
  remains : (t.stepHost S).ensemble.status? p = some .running
  unstopped : ¬ ∃ x ∈ (t.stepHost S).chronicle, ∃ i exit, x.what = .returned i .stop exit

theorem not_stopped_of_all (none : s.chronicle.all
    (fun x ↦ match x.what with | .returned _ .stop _ => false | _ => true) = true) :
    ¬ ∃ x ∈ s.chronicle, ∃ i exit, x.what = .returned i .stop exit := by
  rintro ⟨x, hx, i, exit, stopped⟩
  have here := Array.all_eq_true'.1 none x hx
  rw [stopped] at here
  cases here

theorem isFailing_crowded : IsFailing .crowded 0 crowdedAsked crowdedLate
    ⟨0, true, some (.requested "done"), none, none, ["b", "a"]⟩ where
  obliging := Setup.isObligingAt_of_forall
    (fun post hp ↦ by cases hp; rfl) (by simp [Act.YieldsIn]) (by simp [Act.YieldsIn])
  grace := by decide
  before := reaches_play (.step (reaches_asked _ trivial) (.turn .host rfl)) (by decide +kernel)
    fun _ _ ↦ trivial
  running := by decide +kernel
  stop := by
    refine ⟨⟨0, true, by decide +kernel⟩, .inl (by decide +kernel), .inr ⟨?_,
      ⟨0, true, some (.requested "done"), none, none, []⟩, 100, [(1, 1), (0, 0)], by decide +kernel⟩,
      by decide +kernel⟩
    refine reaches_passTo (reaches_play (.refl _) (by decide +kernel) fun e he call ↦ ?_)
      (by decide +kernel)
    exact absurd he (Cue.deed_notMem_turns e _)
  named := by decide
  remains := by decide +kernel
  unstopped := not_stopped_of_all (by decide +kernel)

end State

/-- A resource that marks itself as running in its start hook, and hangs there. -/
def Setup.hasty : Setup :=
  .single fun _ ↦ { start := [.mark .running, .hang], serve := [.untilCancelled] }

namespace State

/-- The shutdown is asked for while the hasty resource says that it is running. -/
def hastyAsked : State :=
  ((asked .hasty).stepHost .hasty).play .hasty
    (Cue.turns [(.cycle 0, 3)] ++ [.deed (.request (.requested "done"))])

/-- The grace is over, and it is still in its start hook. -/
def hastyLate : State :=
  ((hastyAsked.stepHost .hasty).play .hasty (Cue.turns [(.watcher 0, 1), (.relay, 3)])).passTo 100

theorem isFailing_hasty : IsFailing .hasty 0 hastyAsked hastyLate
    ⟨0, true, some (.requested "done"), none, none, ["a"]⟩ where
  obliging := Setup.isObligingAt_of_forall
    (fun post hp ↦ by cases hp; rfl) (by simp [Act.YieldsIn]) (by simp)
  grace := by decide
  before := reaches_play (.step (reaches_asked _ trivial) (.turn .host rfl)) (by decide +kernel)
    fun _ _ ↦ trivial
  running := by decide +kernel
  stop := by
    refine ⟨⟨0, true, by decide +kernel⟩, .inl (by decide +kernel), .inr ⟨?_,
      ⟨0, true, some (.requested "done"), none, none, []⟩, 100, [(0, 0)], by decide +kernel⟩,
      by decide +kernel⟩
    refine reaches_passTo (reaches_play (.refl _) (by decide +kernel) fun e he call ↦ ?_)
      (by decide +kernel)
    exact absurd he (Cue.deed_notMem_turns e _)
  named := by decide
  remains := by decide +kernel
  unstopped := not_stopped_of_all (by decide +kernel)

/-- **One resource that hangs can cost another its cleanup**, and being running is not enough: the
obedient resource is told to end only when the grace is over, and the hasty one has never left its
start hook. -/
theorem running_resource_isGivenUp :
    (∃ final, IsFailing .crowded 0 crowdedAsked crowdedLate final) ∧
      ∃ final, IsFailing .hasty 0 hastyAsked hastyLate final :=
  ⟨⟨_, isFailing_crowded⟩, _, isFailing_hasty⟩

end State

end Supervision
