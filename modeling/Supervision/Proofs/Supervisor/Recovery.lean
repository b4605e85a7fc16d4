import Supervision.Proofs.Supervisor.Abreast
import Supervision.Proofs.Supervisor.LatestMove
import Supervision.Proofs.Supervisor.Recorded

/-!
# The window for a recovery

A resource that has come to run has so long to become ready, and then its count of restarts begins
anew (`State.Recovers`). A confirmation sees to that: a watcher begins it when it hears that the
resource runs, which is at the very moment at which it came to run, since no time passes while
somebody has something to do. So no confirmation that is begun waits beyond the window
(`State.IsInWindow`), however many there are, and whatever becomes of the resource.

A watcher that has been overtaken by the bus is the one exception: it looks at the resource and
begins another confirmation, with a window of its own.

* `Step.confirms` — only a confirmation of the resource itself begins its count anew.
* `Step.isInWindow` — while no watcher is overtaken, the window stays as it is.
* `recovers_in_window` — a count begins anew within the window, or within the window that opens
  when a watcher is overtaken.
* `laggard_recovers_late` — so it may come after the window.
-/

namespace Supervision

/-! ### Whose count begins anew -/

namespace State

variable {S : Setup} {s t u : State} {p : Nat} {name : String}

/-- The count of the restarts of a resource begins anew: it falls, or that is told of. -/
def Recovers (p : Nat) (name : String) (s t : State) : Prop :=
  (t.account p).attempts < (s.account p).attempts ∨
    ∃ more e, t.events = s.events ++ more ∧ e ∈ more ∧ e.resource = some name ∧
      e.kind = .restartRecovered

/-- The count of the restarts of a resource goes on. -/
structure Retains (p : Nat) (name : String) (s t : State) : Prop where
  count : (s.account p).attempts ≤ (t.account p).attempts
  mute : IsMute name s t

theorem Retains.not_recovers (h : Retains p name s t) : ¬ Recovers p name s t := by
  rintro (falls | ⟨more, e, events, mem, about, recovered⟩)
  · exact Nat.not_lt_of_le h.count falls
  · obtain ⟨more', events', mute⟩ := h.mute
    cases List.append_cancel_left (events.symm.trans events')
    exact mute e mem about recovered

theorem IsQuiet.retains (h : IsQuiet p name s t) : Retains p name s t :=
  ⟨Nat.le_of_eq h.restarts.symm, h.isMute⟩

theorem Retains.trans (h : Retains p name s t) (h' : Retains p name t u) : Retains p name s u :=
  ⟨Nat.le_trans h.count h'.count, h.mute.trans h'.mute⟩

/-- What a watcher makes of a failure takes nothing off a count. -/
theorem retains_onFailed (resource reason : String) (s : State) :
    Retains p name s (s.onFailed S resource reason).state := by
  refine ⟨?_, isMute_onFailed resource reason s⟩
  have set : ∀ {q : Nat} {a : Account} {t : State}, S.place? resource = some q →
      (s.account q).attempts ≤ a.attempts → t.members = (s.setAccount q a).members →
      (s.account p).attempts ≤ (t.account p).attempts := by
    intro q a t hq le members
    rw [account_of_members members, account_setAccount]
    split
    · rename_i here
      rw [here.1]
      exact le
    · exact Nat.le_refl _
  have h := heed_onFailed S resource reason s
  generalize s.onFailed S resource reason = r at h ⊢
  cases h with
  | ignored _ => exact Nat.le_refl _
  | broken hq here hd left => exact Nat.le_refl _
  | old hq here known => exact set hq (Nat.le_refl _) rfl
  | pending hq here new busy =>
    exact set (a := { s.account _ with handled := s.failures _ }) hq (Nat.le_refl _) rfl
  | @exhausted q hq here new spent =>
    refine set (a := { s.account q with handled := s.failures q }) hq (Nat.le_refl _) ?_
    dsimp only
    rw [request_frame]
    rfl
  | restart hq here new idle left hd => exact set hq (Nat.le_succ _) rfl

end State

section Steps

variable {S : Setup} {admits : Deed → Prop} {who : Option Task} {s s' : State} {p : Nat}
  {name : String}

/-- Nobody but a confirmation begins a count anew. -/
theorem Changes.retains (h : Changes S admits who s s')
    (other : ∀ i, who ≠ some (.confirmation i))
    (honest : ∀ e, admits (.publish e) → e.resource = some name → e.kind.isRestart = false) :
    s.Retains p name s' := by
  induction h with
  | refl => exact ⟨Nat.le_refl _, .of_events rfl⟩
  | tail _ last ih =>
    refine ih.trans ?_
    rcases last.quiet_or (p := p) honest with quiet | ⟨resource, reason, rfl⟩ | ⟨⟨i, hi⟩, -⟩
    · exact quiet.retains
    · exact State.retains_onFailed resource reason _
    · exact absurd hi (other i)

/-- The confirmation looks at its resource with this wait: it has waited so, or begins to. -/
def State.LooksWith (S : Setup) (s : State) (c : Confirmation) (w : Wait) : Prop :=
  c.stage = .waiting w ∨
    c.stage = .fresh ∧ w = .start s.now S.settings.confirmTimeout [c.place]

/-- **Only a confirmation of the resource itself begins its count anew**, when it sees the resource
ready while that runs. -/
theorem Step.confirms (distinct : S.names.Nodup) (hp : S.place? name = some p)
    (honest : ∀ e, admits (.publish e) → e.resource = some name → e.kind.isRestart = false)
    (h : Step S admits s s') (ho : s.IsOrderly) (fits : s.Fits S)
    (recovers : s.Recovers p name s') :
    ∃ (i : Nat) (c : Confirmation) (w : Wait), s.confirmations[i]? = some c ∧ c.place = p ∧
      s.LooksWith S c w ∧ s.ensemble.status? p = some .running ∧
      (s.ensemble.look s.now w).result? = some .ready := by
  have seen : ∀ {i : Nat} {c : Confirmation} {w : Wait}, s.confirmations[i]? = some c →
      s.LooksWith S c w → s.Recovers p name (s.confirmIn S i c.place w) →
      ∃ (i : Nat) (c : Confirmation) (w : Wait), s.confirmations[i]? = some c ∧ c.place = p ∧
        s.LooksWith S c w ∧ s.ensemble.status? p = some .running ∧
        (s.ensemble.look s.now w).result? = some .ready := by
    intro i c w hc looks recovers
    have quiet_or : State.IsQuiet p name s (s.confirmIn S i c.place w) ∨ _ :=
      State.isQuiet_confirmIn_or distinct fits hp
    rcases quiet_or with quiet | ⟨place, running, ready⟩
    · exact absurd recovers quiet.retains.not_recovers
    · exact ⟨i, c, w, hc, place, looks, running, ready⟩
  rcases h.turn_or_changes ho (fun t ↦ ∃ i, t = .confirmation i) with
    ⟨_, ⟨i, rfl⟩, rfl⟩ | ⟨who, other, chain⟩
  · have still : ¬ s.Recovers p name s :=
      State.Retains.not_recovers ⟨Nat.le_refl _, .of_events rfl⟩
    replace recovers : s.Recovers p name (s.stepConfirmation S i) := recovers
    unfold State.stepConfirmation at recovers
    split at recovers
    · exact absurd recovers still
    · rename_i c hc
      split at recovers
      · exact seen hc (.inr ⟨‹_›, rfl⟩) recovers
      · exact seen hc (.inl ‹_›) recovers
      · exact absurd recovers still
  · exact absurd recovers (chain.retains (fun i ↦ other _ ⟨i, rfl⟩) honest).not_recovers

end Steps

/-! ### How long a confirmation waits -/

/-- So long a resource that has come to run has to become ready, in milliseconds. -/
def Setup.window (S : Setup) : Nat := S.settings.confirmTimeout.millisUp

namespace State

variable {S : Setup} {s t : State} {i p opened : Nat} {name : String}

/-- What a step of a confirmation leaves of it. -/
inductive Confirms (S : Setup) (i : Nat) (s : State) (c : Confirmation) : State → Prop where
  | ended {t : State} (h : t.confirmations = (s.setConfirmation i .finished).confirmations) :
      Confirms S i s c t
  | waits {t : State} {w : Wait} (looks : s.LooksWith S c w)
      (h : t.confirmations
        = (s.setConfirmation i (.waiting (s.ensemble.look s.now w))).confirmations) :
      Confirms S i s c t

theorem confirms_confirmIn {c : Confirmation} {w : Wait} (looks : s.LooksWith S c w) :
    Confirms S i s c (s.confirmIn S i c.place w) := by
  have ends : ∀ u : State, u.confirmations = s.confirmations →
      (u.endConfirmation i).confirmations = (s.setConfirmation i .finished).confirmations := by
    intro u same
    unfold endConfirmation setConfirmation enter
    dsimp only
    rw [same]
  unfold confirmIn
  dsimp only
  split
  · exact .waits looks rfl
  · exact .ended (ends _ (by rw [confirm_frame]; rfl))
  · exact .ended rfl

theorem stepConfirmation_cases (S : Setup) (i : Nat) (s : State) :
    s.stepConfirmation S i = s ∨
      ∃ c, s.confirmations[i]? = some c ∧ Confirms S i s c (s.stepConfirmation S i) := by
  unfold stepConfirmation
  split
  · exact .inl rfl
  · rename_i c hc
    split
    · exact .inr ⟨c, hc, confirms_confirmIn (.inr ⟨‹_›, rfl⟩)⟩
    · exact .inr ⟨c, hc, confirms_confirmIn (.inl ‹_›)⟩
    · exact .inl rfl

/-- After a step of a confirmation: it is as it was, or over, or it waits as long as it would have
waited. -/
theorem confirmation_stepConfirmation {k : Nat} {d : Confirmation}
    (hd : (s.stepConfirmation S i).confirmations[k]? = some d) :
    s.confirmations[k]? = some d ∨ d.stage = .finished ∨
      ∃ c w, s.confirmations[k]? = some c ∧ d.place = c.place ∧ s.LooksWith S c w ∧
        d.stage = .waiting (s.ensemble.look s.now w) := by
  rcases stepConfirmation_cases S i s with same | ⟨c, hc, confirms⟩
  · exact .inl (same ▸ hd)
  · have at_ : ∀ stage, (s.stepConfirmation S i).confirmations
        = (s.setConfirmation i stage).confirmations →
        s.confirmations[k]? = some d ∨ k = i ∧ d = { c with stage := stage } := by
      intro stage same
      rw [same, getElem?_setConfirmation] at hd
      split at hd
      · rename_i here
        subst here
        rw [hc] at hd
        cases hd
        exact .inr ⟨rfl, rfl⟩
      · exact .inl hd
    generalize s.stepConfirmation S i = t at confirms at_
    cases confirms with
    | ended same =>
      rcases at_ _ same with old | ⟨-, rfl⟩
      · exact .inl old
      · exact .inr (.inl rfl)
    | waits looks same =>
      rcases at_ _ same with old | ⟨rfl, rfl⟩
      · exact .inl old
      · exact .inr (.inr ⟨c, _, hc, rfl, looks, rfl⟩)

/-- Every confirmation that waits gives up in time. -/
def IsPunctual (S : Setup) (s : State) : Prop :=
  ∀ (i : Nat) (c : Confirmation) (w : Wait), s.confirmations[i]? = some c → c.stage = .waiting w →
    s.now ≤ w.deadline ∧ w.deadline ≤ s.now + S.window

/-- What there is to be learned from a position on there is from an earlier one on. -/
theorem HasNews.mono {next next' : Nat} {target : Status} (h : s.HasNews next' name target)
    (le : next ≤ next') : s.HasNews next name target := by
  obtain ⟨k, e, hk, he, tells⟩ := h
  exact ⟨k, e, Nat.le_trans le hk, he, tells⟩

/-- A watcher that has something to learn can go on. -/
theorem HasNews.isEnabled {w : Watcher} {target : Status} (h : s.HasNews w.next name target)
    (hw : s.watchers[i]? = some w) (going : w.isOver = false) :
    s.isEnabled (.watcher i) = true := by
  obtain ⟨k, e, hk, he, -⟩ := h
  have hlt := (Array.getElem?_eq_some_iff.1 he).1
  have left : s.ensemble.bus.receive w.next ≠ .nothing := fun nothing ↦
    absurd (Bus.receive_eq_nothing_iff.1 nothing) (Nat.not_le_of_lt (Nat.lt_of_le_of_lt hk hlt))
  show s.watcherIsEnabled i = true
  unfold watcherIsEnabled
  rw [hw]
  simp [going, left]

/-- A watcher that has been overtaken can go on. -/
theorem exists_isEnabled_of_not_isAbreast (h : ¬ s.IsAbreast) : ∃ t, s.isEnabled t = true := by
  unfold IsAbreast at h
  simp only [Classical.not_imp, Classical.not_forall, not_not] at h
  obtain ⟨here, i, w, hw, going, count, next, missed⟩ := h
  refine ⟨.watcher i, ?_⟩
  show s.watcherIsEnabled i = true
  unfold watcherIsEnabled
  rw [hw]
  dsimp only
  rw [going, here, missed]
  rfl

/-- The window for the recovery of a resource opened at a moment: no confirmation waits beyond it,
and none will be begun in it later. -/
structure IsInWindow (S : Setup) (p : Nat) (name : String) (opened : Nat) (s : State) : Prop where
  fresh : ∀ (i : Nat) (c : Confirmation), s.confirmations[i]? = some c → c.place = p →
    c.stage = .fresh → s.now ≤ opened
  waiting : ∀ (i : Nat) (c : Confirmation) (w : Wait), s.confirmations[i]? = some c → c.place = p →
    c.stage = .waiting w → w.deadline ≤ opened + S.window
  unread : ∀ (i : Nat) (w : Watcher), s.watchers[i]? = some w → w.isOver = false →
    s.HasNews w.next name .running → s.now ≤ opened

theorem IsPunctual.isInWindow (h : s.IsPunctual S) : s.IsInWindow S p name s.now where
  fresh _ _ _ _ _ := Nat.le_refl _
  waiting i c w hc _ waits := (h i c w hc waits).2
  unread _ _ _ _ _ := Nat.le_refl _

/-- The window stays as it is where no confirmation is begun and nobody has more to learn. -/
theorem IsInWindow.congr (h : s.IsInWindow S p name opened) (now : t.now = s.now)
    (confirmations : ∀ (i : Nat) (d : Confirmation), t.confirmations[i]? = some d → d.place = p →
      s.confirmations[i]? = some d ∨ (d.stage = .fresh ∧ s.now ≤ opened) ∨ d.stage = .finished ∨
        ∃ w, d.stage = .waiting w ∧ w.deadline ≤ opened + S.window)
    (news : ∀ next, t.HasNews next name .running → s.HasNews next name .running)
    (watchers : ∀ (i : Nat) (v : Watcher), t.watchers[i]? = some v → v.isOver = false →
      s.ensemble.bus.size ≤ v.next ∨
        ∃ w, s.watchers[i]? = some w ∧ w.isOver = false ∧ w.next ≤ v.next) :
    t.IsInWindow S p name opened where
  fresh i d hd place fresh := by
    rw [now]
    rcases confirmations i d hd place with old | ⟨-, early⟩ | ended | ⟨w, waits, -⟩
    · exact h.fresh i d old place fresh
    · exact early
    · rw [fresh] at ended
      cases ended
    · rw [fresh] at waits
      cases waits
  waiting i d w hd place waits := by
    rcases confirmations i d hd place with old | ⟨fresh, -⟩ | ended | ⟨v, waits', within⟩
    · exact h.waiting i d w old place waits
    · rw [waits] at fresh
      cases fresh
    · rw [waits] at ended
      cases ended
    · rw [waits] at waits'
      cases waits'
      exact within
  unread i v hv going unread := by
    rw [now]
    have unread := news v.next unread
    rcases watchers i v hv going with new | ⟨w, hw, before, le⟩
    · obtain ⟨k, e, hk, he, -⟩ := unread
      have hlt := (Array.getElem?_eq_some_iff.1 he).1
      exact absurd (Nat.le_trans new hk) (Nat.not_le_of_lt hlt)
    · exact h.unread i w hw before (unread.mono le)

end State

/-! ### Who begins a confirmation -/

section Frames

variable {S : Setup} {admits : Deed → Prop} {who : Option Task} {s s' : State} {p opened : Nat}
  {name : String}

/-- Confirmations go on by themselves, and are begun by watchers. -/
theorem Change.confirmations (h : Change S admits who s s')
    (other : ∀ i, who ≠ some (.confirmation i)) :
    s'.confirmations = s.confirmations ∨
      ∃ i place, who = some (.watcher i) ∧ s' = s.startConfirmation place := by
  cases h with
  | @await i s place => exact .inr ⟨i, place, rfl, rfl⟩
  | linger => exact absurd rfl (other _)
  | leave => exact absurd rfl (other _)
  | confirm => exact absurd rfl (other _)
  | request c => exact .inl (by rw [State.request_frame])
  | mark hm own => exact .inl (by rw [State.mark_frame hm])
  | begin hc fresh hm => exact .inl (by rw [State.mark_frame hm]; rfl)
  | heed resource reason => exact .inl (by rw [State.onFailed_frame])
  | release hr waits due => exact .inl (by rw [State.release_frame])
  | respawn hr gone => exact .inl (by rw [State.respawn_frame])
  | _ => exact .inl rfl

/-- Others leave confirmations alone, but for those that they begin. -/
theorem Changes.confirmation_before (h : Changes S admits who s s')
    (other : ∀ i, who ≠ some (.confirmation i)) {i : Nat} {c : Confirmation}
    (hc : s'.confirmations[i]? = some c) :
    s.confirmations[i]? = some c ∨ (∃ k, who = some (.watcher k)) ∧ c.stage = .fresh := by
  induction h with
  | refl => exact .inl hc
  | tail _ last ih =>
    rcases last.confirmations other with same | ⟨k, place, own, rfl⟩
    · exact ih (same ▸ hc)
    · rw [State.getElem?_startConfirmation] at hc
      split at hc
      · cases hc
        exact .inr ⟨⟨k, own⟩, rfl⟩
      · exact ih hc

/-- Others leave watchers alone, but for those that start at the end of the bus. -/
theorem Changes.watcher_before (h : Changes S admits who s s')
    (other : ∀ i, who ≠ some (.watcher i)) {i : Nat} {v : Watcher}
    (hv : s'.watchers[i]? = some v) (live : v.isOver = false) :
    s.ensemble.bus.size ≤ v.next ∨
      ∃ w, s.watchers[i]? = some w ∧ w.isOver = false ∧ w.next ≤ v.next := by
  induction h with
  | refl => exact .inr ⟨v, hv, live, Nat.le_refl _⟩
  | @tail b c before last ih =>
    rcases last.watchers other with same | ⟨-, -, pushed⟩
    · exact ih (same ▸ hv)
    · rw [pushed, Array.getElem?_push] at hv
      split at hv
      · cases hv
        exact .inl (Changes.grows before).size_le
      · exact ih hv

/-- No confirmation waits too long. -/
theorem Step.isPunctual (h : Step S admits s s') (ho : s.IsOrderly) (hs : s.IsPunctual S) :
    s'.IsPunctual S := by
  have others : ∀ {who : Option Task}, Changes S admits who s s' →
      (∀ i, who ≠ some (.confirmation i)) → s'.now = s.now → s'.IsPunctual S := by
    intro who chain other now i c w hc waits
    rw [now]
    rcases chain.confirmation_before other hc with old | ⟨-, fresh⟩
    · exact hs i c w old waits
    · rw [waits] at fresh
      cases fresh
  cases h with
  | pass moment later idle timers =>
    intro i c w hc waits
    have timer : s.timer? (.confirmation i) = some w.deadline := by
      show (s.confirmations[i]?).bind (·.timer?) = _
      have hc : s.confirmations[i]? = some c := hc
      rw [hc]
      show c.timer? = _
      unfold Confirmation.timer?
      rw [waits]
    refine ⟨timers _ _ timer, Nat.le_trans (hs i c w hc waits).2 ?_⟩
    exact Nat.add_le_add_right (Nat.le_of_lt later) _
  | deed d admitted =>
    exact others (State.changes_undergo d s admitted) nofun (State.now_undergo d s)
  | turn t enabled =>
    have chain : Changes S admits (some t) s (s.step S t) := State.changes_step t s ho
    by_cases own : ∃ i, t = .confirmation i
    · obtain ⟨i, rfl⟩ := own
      intro k d w hd waits
      rw [chain.now]
      rcases State.confirmation_stepConfirmation hd with old | ended | ⟨c, v, hc, -, looks, stage⟩
      · exact hs k d w old waits
      · rw [waits] at ended
        cases ended
      · rw [stage] at waits
        cases waits
        rcases looks with waited | ⟨-, rfl⟩
        · exact hs k c v hc waited
        · exact ⟨Nat.le_add_right _ _, Nat.le_refl _⟩
    · exact others chain (fun i same ↦ own ⟨i, Option.some.inj same⟩) chain.now

/-- While a resource runs, nobody tells anew that it has come to run. -/
theorem State.TellsMoves.hasNews_before (h : s.TellsMoves admits s') (distinct : S.names.Nodup)
    (hp : S.place? name = some p) (frank : ∀ e, admits (.publish e) → ¬ e.Tells name .running)
    (fits : s.Fits S) (running : s.ensemble.status? p = some .running) {next : Nat}
    (news : s'.HasNews next name .running) : s.HasNews next name .running := by
  obtain ⟨more, sent, such⟩ := h
  obtain ⟨k, e, hk, he, tells⟩ := news
  rw [sent] at he
  by_cases old : k < s.ensemble.bus.sent.size
  · rw [Array.getElem?_append_left old] at he
    exact ⟨k, e, hk, he, tells⟩
  · rw [Array.getElem?_append_right (Nat.le_of_not_lt old), List.getElem?_toArray] at he
    rcases such e (List.mem_of_getElem? he) tells.1 with forged | ⟨q, l, l', f, hl, -, legal, rfl⟩
    · exact absurd tells (frank e forged)
    · obtain ⟨-, m, hm, resource, target⟩ := tells
      cases hm
      have here : q = p := Option.some.inj ((fits.place?_name distinct hl).symm.trans
        ((congrArg S.place? resource).trans hp))
      subst here
      have status : l.status = .running :=
        Option.some.inj ((State.status?_eq hl).symm.trans running)
      have target : l'.status = .running := target
      rw [status, target] at legal
      cases legal

/-- A watcher that takes an event begins a confirmation only of a resource that has come to run. -/
theorem State.confirmation_onEvent {e : Event} {i : Nat} {c : Confirmation}
    (hc : (s.onEvent S e).state.confirmations[i]? = some c) :
    s.confirmations[i]? = some c ∨ c.stage = .fresh ∧
      ∃ resource, e.Tells resource .running ∧ S.place? resource = some c.place := by
  unfold onEvent at hc
  split at hc
  · rename_i kind
    split at hc
    · exact .inl hc
    · rename_i m hm
      dsimp only at hc
      split at hc
      · rw [onFailed_frame] at hc
        exact .inl hc
      · rename_i target
        unfold onRunning at hc
        split at hc
        · exact .inl hc
        · rename_i place hp
          rw [getElem?_startConfirmation] at hc
          split at hc
          · cases hc
            exact .inr ⟨rfl, m.resource, ⟨kind, m, hm, rfl, target⟩, hp⟩
          · exact .inl hc
      · unfold escalate at hc
        split at hc
        · exact .inl hc
        · rw [request_frame] at hc
          exact .inl hc
      · exact .inl hc
  · exact .inl hc

theorem State.setWatcher_cases {i k : Nat} {v x : Watcher}
    (h : (s.setWatcher i v).watchers[k]? = some x) : x = v ∨ s.watchers[k]? = some x := by
  unfold setWatcher at h
  dsimp only at h
  rw [Array.getElem?_setIfInBounds] at h
  split at h
  · split at h
    · cases h
      exact .inl rfl
    · cases h
  · exact .inr h

/-- A watcher that is not overtaken begins a confirmation within the window only. -/
theorem State.IsInWindow.stepWatcher {i : Nat} (hs : s.IsInWindow S p name opened)
    (ho : s.IsOrderly) (hp : S.place? name = some p) (abreast : s.IsAbreast)
    (news : ∀ next, (s.stepWatcher S i).HasNews next name .running →
      s.HasNews next name .running) :
    (s.stepWatcher S i).IsInWindow S p name opened := by
  have chain : Changes S (fun _ ↦ False) (some (.watcher i)) s (s.stepWatcher S i) :=
    State.changes_step (.watcher i) s ho
  have now := chain.now
  have step := watches_stepWatcher S i s
  generalize s.stepWatcher S i = t at news now step
  cases step with
  | rests => exact hs
  | looks hw going here missed => exact absurd missed (abreast here i _ hw going _ _)
  | @ends w hw asked =>
    refine hs.congr now (fun k d hd _ ↦ .inl hd) news fun k v hv live ↦ .inr ?_
    rcases setWatcher_cases hv with rfl | old
    · cases live
    · exact ⟨v, old, live, Nat.le_refl _⟩
  | @acts w e hw going here he =>
    let moved : Watcher := { w with next := w.next + 1 }
    have watchers := (frame_onEvent (S := S) e (s.setWatcher i moved)).2
    refine hs.congr now (fun k d hd place ↦ ?_) news fun k v hv live ↦ .inr ?_
    · have hd : ((s.setWatcher i moved).onEvent S e).state.confirmations[k]? = some d := by
        unfold watcherAfter at hd
        split at hd <;> exact hd
      rcases confirmation_onEvent hd with old | ⟨fresh, resource, tells, here⟩
      · exact .inl old
      · rw [place] at here
        obtain ⟨post, hpost, rfl⟩ := Setup.exists_post_of_place? here
        obtain ⟨post', hpost', rfl⟩ := Setup.exists_post_of_place? hp
        cases hpost.symm.trans hpost'
        exact .inr (.inl ⟨fresh, hs.unread i w hw going ⟨w.next, e, Nat.le_refl _, he, tells⟩⟩)
    · have stays : (s.setWatcher i moved).watchers[k]? = some v := by
        unfold watcherAfter at hv
        split at hv
        · exact watchers ▸ hv
        · rcases setWatcher_cases hv with rfl | old
          · cases live
          · exact watchers ▸ old
      unfold setWatcher at stays
      dsimp only at stays
      rw [Array.getElem?_setIfInBounds] at stays
      split at stays
      · rename_i same
        subst same
        split at stays
        · cases stays
          exact ⟨w, hw, going, Nat.le_succ _⟩
        · cases stays
      · exact ⟨v, stays, live, Nat.le_refl _⟩

/-- **While the resource runs and no watcher is overtaken, the window stays as it is.** -/
theorem Step.isInWindow (h : Step S admits s s') (distinct : S.names.Nodup)
    (hp : S.place? name = some p) (frank : ∀ e, admits (.publish e) → ¬ e.Tells name .running)
    (ho : s.IsOrderly) (fits : s.Fits S) (abreast : s.IsAbreast)
    (running : s.ensemble.status? p = some .running) (hs : s.IsInWindow S p name opened) :
    s'.IsInWindow S p name opened := by
  have news : ∀ next, s'.HasNews next name .running → s.HasNews next name .running := fun next ↦
    (h.tellsMoves ho fits).hasNews_before distinct hp frank fits running
  have others : ∀ {who : Option Task}, Changes S admits who s s' →
      (∀ i, who ≠ some (.confirmation i)) → (∀ i, who ≠ some (.watcher i)) → s'.now = s.now →
      s'.IsInWindow S p name opened := by
    intro who chain confirmations watchers now
    refine hs.congr now (fun i d hd place ↦ .inl ?_) news fun i v hv live ↦ ?_
    · refine (chain.confirmation_before confirmations hd).resolve_right ?_
      rintro ⟨⟨k, own⟩, -⟩
      exact watchers k own
    · exact chain.watcher_before watchers hv live
  cases h with
  | deed d admitted =>
    exact others (State.changes_undergo d s admitted) nofun nofun (State.now_undergo d s)
  | turn t enabled =>
    have chain : Changes S admits (some t) s (s.step S t) := State.changes_step t s ho
    by_cases ofWatcher : ∃ i, t = .watcher i
    · obtain ⟨i, rfl⟩ := ofWatcher
      exact hs.stepWatcher ho hp abreast news
    by_cases ofConfirmation : ∃ i, t = .confirmation i
    · obtain ⟨i, rfl⟩ := ofConfirmation
      refine hs.congr chain.now (fun k d hd place ↦ ?_) news fun k v hv live ↦
        chain.watcher_before nofun hv live
      rcases State.confirmation_stepConfirmation hd with
        old | ended | ⟨c, w, hc, same, looks, stage⟩
      · exact .inl old
      · exact .inr (.inr (.inl ended))
      · refine .inr (.inr (.inr ⟨_, stage, ?_⟩))
        rw [same] at place
        rcases looks with waits | ⟨fresh, rfl⟩
        · exact hs.waiting k c w hc place waits
        · exact Nat.add_le_add_right (hs.fresh k c hc place fresh) _
    · exact others chain (fun i own ↦ ofConfirmation ⟨i, Option.some.inj own⟩)
        (fun i own ↦ ofWatcher ⟨i, Option.some.inj own⟩) chain.now
  | pass moment later idle timers =>
    -- Time passes only when nobody has anything to begin or to learn.
    refine ⟨fun i c hc _ fresh ↦ ?_, hs.waiting, fun i w hw going unread ↦ ?_⟩
    · have enabled : s.isEnabled (.confirmation i) = true := by
        show s.confirmationIsEnabled i = true
        unfold State.confirmationIsEnabled
        have hc : s.confirmations[i]? = some c := hc
        rw [hc]
        dsimp only
        rw [fresh]
      rw [idle] at enabled
      cases enabled
    · have unread : s.HasNews w.next name .running := unread
      have enabled := unread.isEnabled hw going
      rw [idle] at enabled
      cases enabled

/-- No time passes while a watcher is overtaken. -/
theorem Step.now_of_not_isAbreast (h : Step S admits s s') (ho : s.IsOrderly)
    (behind : ¬ s.IsAbreast) : s'.now = s.now := by
  cases h with
  | turn t enabled =>
    have chain : Changes S admits (some t) s (s.step S t) := State.changes_step t s ho
    exact chain.now
  | deed d admitted => exact State.now_undergo d s
  | pass moment later idle timers =>
    obtain ⟨t, enabled⟩ := State.exists_isEnabled_of_not_isAbreast behind
    rw [idle] at enabled
    cases enabled

end Frames

/-! ### In every run -/

/-- One state leads to another, and the resource in a place runs all the while. -/
def RunsOn (S : Setup) (admits : Deed → Prop) (p : Nat) : State → State → Prop :=
  Relation.ReflTransGen fun s t ↦ Step S admits s t ∧ t.ensemble.status? p = some .running

section Run

variable {S : Setup} {admits : Deed → Prop} {bus : Bus} {recorder : Option Recorder} {now p : Nat}
  {u s s' : State}

theorem RunsOn.reaches (h : RunsOn S admits p u s) : Reaches S admits u s := by
  induction h with
  | refl => exact .refl u
  | tail _ last ih => exact ih.step last.1

theorem RunsOn.status (h : RunsOn S admits p u s) (runs : u.ensemble.status? p = some .running) :
    s.ensemble.status? p = some .running := by
  cases h with
  | refl => exact runs
  | tail _ last => exact last.2

theorem Reaches.isPunctual (h : Reaches S admits (.initial S bus recorder now) s) :
    s.IsPunctual S :=
  (h.keeps (P := fun s ↦ s.IsOrderly ∧ s.IsPunctual S)
    (fun hs step ↦ ⟨step.isOrderly hs.1, step.isPunctual hs.1 hs.2⟩)
    ⟨State.isOrderly_initial S bus recorder now, by nofun⟩).2

/-- While a resource runs its window is open: it opened at the beginning, or where a watcher was
overtaken last. -/
theorem RunsOn.exists_window (h : RunsOn S admits p u s) (distinct : S.names.Nodup)
    {name : String} (place : S.place? name = some p)
    (frank : ∀ e, admits (.publish e) → ¬ e.Tells name .running)
    (begun : Reaches S admits (.initial S bus recorder now) u)
    (runs : u.ensemble.status? p = some .running) :
    ∃ opened, s.IsInWindow S p name opened ∧
      (opened = u.now ∨ ∃ v, RunsOn S admits p u v ∧ RunsOn S admits p v s ∧ ¬ v.IsAbreast ∧
        opened = v.now) := by
  induction h with
  | refl => exact ⟨u.now, begun.isPunctual.isInWindow, .inl rfl⟩
  | @tail b c before step ih =>
    obtain ⟨opened, window, since⟩ := ih
    have reached : Reaches S admits (.initial S bus recorder now) b :=
      begun.trans (RunsOn.reaches before)
    obtain ⟨ho, fits⟩ := reached.fits
    by_cases abreast : b.IsAbreast
    · refine ⟨opened, step.1.isInWindow distinct place frank ho fits abreast
        (RunsOn.status before runs) window, since.imp_right ?_⟩
      rintro ⟨v, first, rest, behind, same⟩
      exact ⟨v, first, rest.tail step, behind, same⟩
    · refine ⟨b.now, ?_, .inr ⟨b, before, .single step, abreast, rfl⟩⟩
      rw [← step.1.now_of_not_isAbreast ho abreast]
      exact (reached.step step.1).isPunctual.isInWindow

/-- **A count of restarts begins anew within the window.** If the count of restarts of a resource
begins anew, the resource is running and ready at that moment. Take any moment since which it has
run, for instance that at which it came to run: no more than the window has passed since; unless a
watcher was overtaken by the bus in between, and then no more than the window has passed since
that. -/
theorem recovers_in_window {post : Post} (distinct : S.names.Nodup)
    (hp : S.posts[p]? = some post)
    (honest : ∀ e, admits (.publish e) → e.resource = some post.name → e.kind.isRestart = false)
    (frank : ∀ e, admits (.publish e) → ¬ e.Tells post.name .running)
    (run : Reaches S admits (.initial S bus recorder now) s) (last : Step S admits s s')
    (recovers : s.Recovers p post.name s') :
    s.ensemble.status? p = some .running ∧ s.ensemble.isReady p = true ∧
      ∀ u, Reaches S admits (.initial S bus recorder now) u →
        u.ensemble.status? p = some .running → RunsOn S admits p u s →
        s.now ≤ u.now + S.window ∨
          ∃ v, RunsOn S admits p u v ∧ RunsOn S admits p v s ∧ ¬ v.IsAbreast ∧
            s.now ≤ v.now + S.window := by
  have place := Setup.place?_name distinct hp
  obtain ⟨ho, fits⟩ := run.fits
  have patient : s.IsPatient := (run.keeps_changes (P := State.IsPatient)
    (fun _ hs change ↦ change.isPatient hs) (State.isOrderly_initial S bus recorder now)
    (by nofun)).2
  obtain ⟨i, c, w, hc, same, looks, running, ready⟩ :=
    last.confirms distinct place honest ho fits recovers
  have single : w.entries = [(p, none)] := by
    rcases looks with waits | ⟨-, rfl⟩
    · exact same ▸ patient i c w hc waits
    · exact same ▸ rfl
  refine ⟨running, (State.isReady_of_look single ready).1, fun u begun runs going ↦ ?_⟩
  obtain ⟨opened, window, since⟩ := going.exists_window distinct place frank begun runs
  have within : s.now ≤ opened + S.window := by
    rcases looks with waits | ⟨fresh, -⟩
    · exact Nat.le_trans (run.isPunctual i c w hc waits).1 (window.waiting i c w hc same waits)
    · exact Nat.le_trans (window.fresh i c hc same fresh) (Nat.le_add_right _ _)
  rcases since with rfl | ⟨v, first, rest, behind, rfl⟩
  · exact .inl within
  · exact .inr ⟨v, first, rest, behind, within⟩

end Run

/-- The mending resource recovers as soon as it runs. -/
theorem mending_recovers_in_window :
    Setup.mending.names.Nodup ∧
      State.mendingRestarted.Recovers 0 "a"
        (State.mendingRestarted.step .mending (.confirmation 0)) ∧
      State.mendingRestarted.ensemble.status? 0 = some .running ∧
      State.mendingRestarted.ensemble.isReady 0 = true ∧
      (State.mendingRestarted.now ≤ State.mendingRestarted.now + Setup.mending.window ∨
        ∃ v, RunsOn .mending (· = .call) 0 State.mendingRestarted v ∧
          RunsOn .mending (· = .call) 0 v State.mendingRestarted ∧ ¬ v.IsAbreast ∧
          State.mendingRestarted.now ≤ v.now + Setup.mending.window) := by
  have distinct : Setup.mending.names.Nodup := by decide
  have run := State.reaches_mendingRestarted
  have recovers : State.mendingRestarted.Recovers 0 "a"
      (State.mendingRestarted.step .mending (.confirmation 0)) := .inl (by decide +kernel)
  have here : Setup.mending.posts[0]? = some _ := rfl
  have ready := recovers_in_window distinct here (fun e he ↦ by cases he) (fun e he ↦ by cases he)
    run (.turn (.confirmation 0) (by decide +kernel)) recovers
  exact ⟨distinct, recovers, ready.1, ready.2.1, ready.2.2 _ run ready.1 .refl⟩

/-! ### A watcher that is overtaken -/

/-- Its resource fails once. Started again, it is told to be not ready three times at 90
milliseconds, and is ready at 150 milliseconds, when 100 are allowed. -/
def Setup.laggard : Setup :=
  { Setup.single fun
      | 0 => { serve := [.mark (.failed (.plain "resource_failed" "lost"))] }
      | _ => { serve := [.sleep 90, .mark (.notReady "x"), .mark (.notReady "y"),
          .mark (.notReady "z"), .sleep 60, .mark .ready, .untilCancelled] } with
    settings := { Settings.standard with
      backoff := { base := .ofSecs 0, multiplier := 1.0, max := .ofSecs 60, jitter := .none }
      confirmTimeout := .ofMillis 100 } }

/-- The first cycle fails, and the second has called its start hook. -/
def Cue.secondStart : List Cue :=
  Cue.turns [(.host, 1), (.cycle 0, 1), (.watcher 0, 1), (.cycle 0, 2), (.watcher 0, 1),
    (.cycle 0, 1), (.watcher 0, 3), (.restart 0, 1), (.cycle 0, 2), (.restart 0, 1), (.cycle 1, 1),
    (.watcher 0, 1), (.cycle 1, 1)]

/-- Everybody learns that the resource runs. -/
def Cue.welcome : List Cue :=
  Cue.turns [(.watcher 0, 1), (.confirmation 0, 1), (.confirmation 1, 1), (.cycle 1, 1),
    (.relay, 3)]

/-- The resource tells three times that it is not ready before the watcher listens. -/
def Cue.flurry : List Cue :=
  Cue.turns [(.cycle 1, 5), (.watcher 0, 3), (.confirmation 2, 1), (.relay, 3)]

namespace State

/-- Every cue of a schedule leaves a resource running. -/
def runsAlong (S : Setup) (p : Nat) : List Cue → State → Bool
  | [], _ => true
  | c :: rest, s =>
    decide ((s.follow S c).ensemble.status? p = some .running) && runsAlong S p rest (s.follow S c)

/-- On a bus of two events: the laggard is about to run for the second time. -/
def laggardRestarted : State :=
  ((State.initial .laggard (.ofCapacity 2) none 0).undergo .call).play .laggard Cue.secondStart

/-- It runs. -/
def laggardRuns : State := laggardRestarted.step .laggard (.cycle 1)

/-- It has run for 150 milliseconds, and was not ready so far. -/
def laggardUnready : State :=
  ((((((laggardRuns.play .laggard Cue.welcome).passTo 90).play .laggard Cue.flurry).passTo 100).play
    .laggard (Cue.turns [(.confirmation 0, 1), (.confirmation 1, 1)])).passTo 150)

/-- It is ready. -/
def laggardReady : State := laggardUnready.play .laggard (Cue.turns [(.cycle 1, 2)])

end State

section Laggard

variable {S : Setup} {admits : Deed → Prop} {p : Nat} {u s : State}

theorem RunsOn.play {cues : List Cue} (h : RunsOn S admits p u s)
    (playable : State.isPlayable S cues s = true) (admitted : ∀ d, .deed d ∈ cues → admits d)
    (runs : State.runsAlong S p cues s = true) : RunsOn S admits p u (s.play S cues) := by
  induction cues generalizing s with
  | nil => exact h
  | cons c rest ih =>
    obtain ⟨first, later⟩ := Bool.and_eq_true_iff.1 runs
    have step : Step S admits s (s.follow S c) :=
      State.step_follow playable fun d hd ↦ admitted d (hd ▸ List.mem_cons_self)
    exact ih (h.tail ⟨step, of_decide_eq_true first⟩) (Bool.and_eq_true_iff.1 playable).2
      (fun d hd ↦ admitted d (List.mem_cons_of_mem _ hd)) later

theorem RunsOn.passTo {moment : Nat} (h : RunsOn S admits p u s)
    (quiet : s.isQuietUntil moment = true) (runs : s.ensemble.status? p = some .running) :
    RunsOn S admits p u (s.passTo moment) :=
  h.tail ⟨State.step_passTo quiet, runs⟩

end Laggard

/-- **A count may begin anew after the window.** The laggard has come to run at the beginning, and
100 milliseconds are allowed. It was never ready before 150 milliseconds, but its watcher was
overtaken by the bus at 90 milliseconds, and so its count begins anew. -/
theorem laggard_recovers_late :
    Reaches .laggard (· = .call) (.initial .laggard (.ofCapacity 2) none 0) State.laggardRestarted ∧
      State.laggardRestarted.ensemble.status? 0 = some .starting ∧
      Step .laggard (· = .call) State.laggardRestarted State.laggardRuns ∧
      State.laggardRuns.ensemble.status? 0 = some .running ∧
      RunsOn .laggard (· = .call) 0 State.laggardRuns State.laggardUnready ∧
      (∀ e ∈ State.laggardUnready.ensemble.bus.sent, e.ready ≠ some true) ∧
      RunsOn .laggard (· = .call) 0 State.laggardUnready State.laggardReady ∧
      Step .laggard (· = .call) State.laggardReady
        (State.laggardReady.step .laggard (.confirmation 2)) ∧
      State.laggardReady.Recovers 0 "a"
        (State.laggardReady.step .laggard (.confirmation 2)) ∧
      ¬ State.laggardUnready.now ≤ State.laggardRuns.now + Setup.laggard.window := by
  have run : Reaches .laggard (· = .call) (.initial .laggard (.ofCapacity 2) none 0)
      State.laggardRestarted :=
    State.reaches_play (.step (.refl _) (.deed .call rfl)) (by decide +kernel)
      fun d hd ↦ absurd hd (Cue.deed_notMem_turns d _)
  have runs : State.laggardRuns.ensemble.status? 0 = some .running := by decide +kernel
  have first : RunsOn .laggard (· = .call) 0 State.laggardRuns
      ((State.laggardRuns.play .laggard Cue.welcome).passTo 90) :=
    (RunsOn.play .refl (by decide +kernel) (fun d hd ↦ absurd hd (Cue.deed_notMem_turns d _))
      (by decide +kernel)).passTo (by decide +kernel) (by decide +kernel)
  have second : RunsOn .laggard (· = .call) 0 State.laggardRuns
      ((((State.laggardRuns.play .laggard Cue.welcome).passTo 90).play .laggard Cue.flurry).passTo
        100) :=
    (RunsOn.play first (by decide +kernel) (fun d hd ↦ absurd hd (Cue.deed_notMem_turns d _))
      (by decide +kernel)).passTo (by decide +kernel) (by decide +kernel)
  have unready : RunsOn .laggard (· = .call) 0 State.laggardRuns State.laggardUnready :=
    (second.play (by decide +kernel) (fun d hd ↦ absurd hd (Cue.deed_notMem_turns d _))
      (by decide +kernel)).passTo (by decide +kernel) (by decide +kernel)
  have ready : RunsOn .laggard (· = .call) 0 State.laggardUnready State.laggardReady :=
    RunsOn.play .refl (by decide +kernel) (fun d hd ↦ absurd hd (Cue.deed_notMem_turns d _))
      (by decide +kernel)
  exact ⟨run, by decide +kernel, .turn (.cycle 1) (by decide +kernel), runs, unready,
    by decide +kernel, ready, .turn (.confirmation 2) (by decide +kernel),
    .inl (by decide +kernel), by decide +kernel⟩

end Supervision
