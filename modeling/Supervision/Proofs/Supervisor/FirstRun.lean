import Supervision.Proofs.Supervisor.Meek

/-!
# Whose turn it is

In the first run, and where everybody leaves the status alone, a resource is in one pair of hands at
a time (`State.Turn`): a cycle of it goes on, or it has failed and a watcher has yet to act on that,
or a restart is on its way. So whenever a cycle has not begun, its resource may start.

* `State.CycleStep.passes_turn`, `Change.passes_turn` — the turn passes from one to the next.
* `Reaches.begins_of_fresh` — in the first run, every cycle that has not begun may begin.
-/

namespace Supervision

namespace State

/-- Restart `j` is of the resource in place `p` and has not ended. -/
def IsRestarting (p j : Nat) (s : State) : Prop :=
  ∃ r : Restart, s.restarts[j]? = some r ∧ r.place = p ∧ r.stage ≠ .finished

/-- Cycle `i` of the resource in place `p` has not begun, and the resource may start: it makes its
move to starting with the first step of the cycle. -/
def Begins (i p : Nat) (s : State) : Prop :=
  ∃ (c : Cycle) (l : Lifecycle), s.cycles[i]? = some c ∧ c.place = p ∧ c.stage = .fresh ∧
    s.lifecycle? p = some l ∧ l.status.allows .starting = true

/-- Whose turn it is with the resource in place `p`. -/
inductive Turn (p : Nat) (s : State) : Prop where
  /-- A cycle's: there is one at most, and it may begin if it has not. -/
  | cycle (one : ∀ i k, s.IsGoing p i → s.IsGoing p k → i = k)
      (calm : ∀ j, ¬ s.IsRestarting p j) (known : s.failures p ≤ (s.account p).handled)
      (startable : ∀ (i : Nat) (c : Cycle) (l : Lifecycle), s.cycles[i]? = some c →
        c.place = p → c.stage = .fresh → s.lifecycle? p = some l →
        l.status.allows .starting = true)
  /-- A watcher's: the resource has failed. -/
  | failure (ended : ∀ i, ¬ s.IsGoing p i) (calm : ∀ j, ¬ s.IsRestarting p j)
      (failed : ∀ l, s.lifecycle? p = some l → l.status = .failed)
  /-- A restart's: there is one at most, and the failure behind it was acted on. -/
  | restart (ended : ∀ i, ¬ s.IsGoing p i)
      (one : ∀ j k, s.IsRestarting p j → s.IsRestarting p k → j = k)
      (known : s.failures p ≤ (s.account p).handled)
      (failed : ∀ l, s.lifecycle? p = some l → l.status = .failed)

variable {S : Setup} {i p j : Nat} {c : Cycle} {s t : State}

theorem IsAboutToStart.isRestarting (h : s.IsAboutToStart j p) : s.IsRestarting p j := by
  cases h with
  | @due stage hr due here going free =>
    refine ⟨_, hr, rfl, fun isOver ↦ ?_⟩
    have waits := RestartStage.isOnCalendar_of_isDue due
    rw [show stage = .finished from isOver] at waits
    cases waits
  | joined hr gone going => exact ⟨_, hr, rfl, nofun⟩

/-- What leaves a resource alone leaves the turn where it is. -/
theorem Turn.congr (h : Turn p s)
    (cycles : ∀ (k : Nat) (c : Cycle), c.place = p → t.cycles[k]? = some c → s.cycles[k]? = some c)
    (lifecycle : t.lifecycle? p = s.lifecycle? p) (restarts : t.restarts = s.restarts)
    (account : t.account p = s.account p) : Turn p t := by
  have going : ∀ {i}, t.IsGoing p i → s.IsGoing p i := by
    rintro i ⟨c, hc, place, going⟩
    exact ⟨c, cycles i c place hc, place, going⟩
  have restarting : ∀ {j}, t.IsRestarting p j → s.IsRestarting p j := by
    rintro j ⟨r, hr, waits⟩
    exact ⟨r, restarts ▸ hr, waits⟩
  have known : s.failures p ≤ (s.account p).handled → t.failures p ≤ (t.account p).handled := by
    have same : t.failures p = s.failures p := by
      unfold failures
      rw [lifecycle]
    rw [account, same]
    exact id
  cases h with
  | cycle one calm old startable =>
    refine .cycle (fun i k hi hk ↦ one i k (going hi) (going hk))
      (fun j hj ↦ calm j (restarting hj)) (known old) fun i c l hc place fresh hl ↦ ?_
    exact startable i c l (cycles i c place hc) place fresh (lifecycle ▸ hl)
  | failure ended calm failed =>
    exact .failure (fun i hi ↦ ended i (going hi)) (fun j hj ↦ calm j (restarting hj))
      fun l hl ↦ failed l (lifecycle ▸ hl)
  | restart ended one old failed =>
    exact .restart (fun i hi ↦ ended i (going hi))
      (fun j k hj hk ↦ one j k (restarting hj) (restarting hk)) (known old)
      fun l hl ↦ failed l (lifecycle ▸ hl)

/-- The turn is that of a cycle which has begun, and beside which no other goes on. -/
theorem Turn.of_begun (hc : s.cycles[i]? = some c) (begun : c.stage ≠ .fresh)
    (alone : ∀ k, s.IsGoing p k → k = i) (calm : ∀ j, ¬ s.IsRestarting p j)
    (known : s.failures p ≤ (s.account p).handled) : Turn p s := by
  refine .cycle (fun j k hj hk ↦ (alone j hj).trans (alone k hk).symm) calm known
    fun k d l hd here fresh hl ↦ ?_
  have own := alone k ⟨d, hd, here, by rw [fresh]; nofun⟩
  subst own
  rw [hc] at hd
  cases hd
  exact absurd fresh begun

/-- A cycle that goes on has the turn, and keeps it until it ends. -/
theorem Turn.passes {l : Lifecycle} (turn : Turn c.place s) (hc : s.cycles[i]? = some c)
    (hl : s.lifecycle? c.place = some l) (going : c.stage ≠ .finished)
    (others : ∀ k, k ≠ i → t.cycles[k]? = s.cycles[k]?) (restarts : t.restarts = s.restarts)
    (account : t.account c.place = s.account c.place) (driven : t.IsDriven i c l) :
    Turn c.place t := by
  obtain ⟨c', l', hc', -, hl', drives⟩ := driven
  have own : s.IsGoing c.place i := ⟨c, hc, rfl, going⟩
  cases turn with
  | failure ended calm failed => exact absurd own (ended i)
  | restart ended one known failed => exact absurd own (ended i)
  | cycle one calm known startable =>
    -- No other cycle goes on beside it, and so none does afterwards.
    have alone : ∀ k, t.IsGoing c.place k → k = i := by
      rintro k ⟨e, he, here, still⟩
      refine Classical.byContradiction fun ne ↦ ne ?_
      exact one k i ⟨e, others k ne ▸ he, here, still⟩ own
    have quiet : ∀ j, ¬ t.IsRestarting c.place j := by
      rintro j ⟨r, hr, waits⟩
      exact calm j ⟨r, restarts ▸ hr, waits⟩
    have goesOn : c'.stage ≠ .fresh → l'.failures = l.failures → Turn c.place t := by
      intro begun failures
      refine .of_begun hc' begun alone quiet ?_
      rw [failures_eq hl', failures, account, ← failures_eq hl]
      exact known
    cases drives with
    | rests isOver => exact absurd isOver going
    | turnsAway fresh illegal =>
      rw [startable i c l hc rfl fresh hl] at illegal
      cases illegal
    | begins fresh legal gated status failures => exact goesOn (by rw [gated]; nofun) failures
    | goesOn before after suits failures => exact goesOn after.1 failures
    | ends before isOver failures =>
      by_cases failed : l'.status = .failed
      · refine .failure (fun k hk ↦ ?_) quiet fun m hm ↦ ?_
        · have own := alone k hk
          subst own
          obtain ⟨e, he, -, still⟩ := hk
          rw [hc'] at he
          cases he
          exact still isOver
        · rw [hl'] at hm
          cases hm
          exact failed
      · rw [if_neg failed] at failures
        exact goesOn (by rw [isOver]; nofun) failures

/-- **What a step of a cycle makes of the turn**: the cycle keeps it until it ends. -/
theorem CycleStep.passes_turn (h : CycleStep S i c s t) (meek : S.IsMeek)
    (hc : s.cycles[i]? = some c) (hf : s.Fits S) (steady : s.IsSteady)
    (restarts : t.restarts = s.restarts)
    (account : t.account p = s.account p) (turn : Turn p s) : Turn p t := by
  obtain ⟨l, hl⟩ := hf.exists_lifecycle (hf.cycles i c hc)
  have driven : t.IsDriven i c l := h.drives meek hc hl (steady.suits i c l hc hl)
  obtain ⟨others, elsewhere⟩ := h.frame
  by_cases here : p = c.place
  · subst here
    by_cases isOver : c.stage = .finished
    · obtain ⟨c', l', hc', -, hl', drives⟩ := driven
      obtain ⟨rfl, rfl⟩ := drives.of_finished isOver
      refine turn.congr (fun k e _ he ↦ ?_) (hl'.trans hl.symm) restarts account
      by_cases own : k = i
      · subst own
        rw [hc, ← he, hc']
      · exact others k own ▸ he
    · exact turn.passes hc hl isOver others restarts account driven
  · obtain ⟨c', -, hc', place, -⟩ := driven
    refine turn.congr (fun k e there he ↦ ?_) (elsewhere p here) restarts account
    by_cases own : k = i
    · subst own
      rw [hc'] at he
      cases he
      exact absurd (there.symm.trans place) here
    · exact others k own ▸ he

end State

section Run

variable {S : Setup} {admits : Deed → Prop} {who : Option Task} {s s' : State} {i p j : Nat}

/-! ### What others make of the turn -/

/-- A restart that has not ended was there before, or a watcher has just acted on a failure. -/
theorem Change.isRestarting_before (h : Change S admits who s s') (hf : s.Fits S)
    (hr : s'.IsRestarting p j) :
    s.IsRestarting p j ∨ (∃ i, who = some (.watcher i)) ∧ j = s.restarts.size ∧
      (s.account p).handled < s.failures p ∧ (s'.account p).handled = s.failures p := by
  obtain ⟨r, hr, rfl, waits⟩ := hr
  rcases h.restarts with e | ⟨i, place, delay, own, hp, e, new, members⟩ | ⟨k, stage, rfl, e⟩
  · exact .inl ⟨r, e ▸ hr, rfl, waits⟩
  · rw [e] at hr
    rcases State.startRestart_cases hr with old | ⟨rfl, rfl⟩
    · exact .inl ⟨r, old, rfl, waits⟩
    · have account := (State.account_of_members members place).trans
        (State.account_setAccount_self _ (hf.size ▸ hp))
      exact .inr ⟨⟨i, own⟩, rfl, new, congrArg Account.handled account⟩
  · have moved : (s.setRestart k stage).restarts[j]? = some r := e ▸ hr
    rcases State.setRestart_cases moved with ⟨-, old⟩ | ⟨rfl, b, hb, rfl⟩
    · exact .inl ⟨r, old, rfl, waits⟩
    · refine .inl ⟨b, hb, rfl, fun isOver ↦ ?_⟩
      rcases h.of_restart hb with ⟨same, -⟩ | ⟨wake, early, -⟩ | ⟨early, -⟩ | ⟨c, joins, -⟩
      · rw [same, hb] at hr
        exact waits ((congrArg Restart.stage (Option.some.inj hr)).symm.trans isOver)
      · rw [isOver] at early
        cases early
      · rw [isOver] at early
        cases early
      · rw [isOver] at joins
        cases joins

/-- A restart that starts a cycle has ended. -/
theorem Change.restart_ends (h : Change S admits (some (.restart j)) s s')
    (hr : s.IsRestarting p j) (started : s'.cycles.size ≠ s.cycles.size) :
    ¬ s'.IsRestarting p j := by
  obtain ⟨r, hr, -, -⟩ := hr
  have isOver : s'.restarts[j]? = some { r with stage := .finished } := by
    rcases h.of_restart hr with ⟨-, size⟩ | ⟨wake, -, rfl⟩ | ⟨-, rfl⟩ | ⟨c, -, -, rfl⟩
    · exact absurd size started
    · exact absurd rfl started
    · have release := State.release_release j r.place s
      generalize s.release j r.place = t at release started ⊢
      cases release with
      | abandoned ha => exact State.getElem?_endRestart_self (s := s.setAccount r.place _) hr
      | joins here hm hc => exact absurd Array.size_modify started
      | starts here going hc =>
        exact State.getElem?_endRestart_self (s := (s.setAccount r.place _).startCycle r.place) hr
    · exact State.restart_respawn hr
  rintro ⟨b, hb, -, waits⟩
  rw [isOver] at hb
  cases hb
  exact waits rfl

/-- Nobody but a cycle makes a resource fail. -/
theorem Change.failures_le (h : Change S admits who s s') (meek : Deed.IsMeek admits)
    (other : ∀ i, who ≠ some (.cycle i)) : s'.failures p ≤ s.failures p := by
  cases hl' : s'.lifecycle? p with
  | none =>
    unfold State.failures
    rw [hl']
    exact Nat.zero_le _
  | some l' =>
    obtain ⟨l, hl, -, failures⟩ := h.lifecycle_of_other meek other hl'
    exact Nat.le_of_eq
      ((State.failures_eq hl').trans (failures.trans (State.failures_eq hl).symm))

theorem Change.handled_mono (h : Change S admits who s s') (hf : s.Fits S) :
    (s.account p).handled ≤ (s'.account p).handled := by
  cases h.account hf p with
  | same e => exact Nat.le_of_eq (by rw [e])
  | release hr waits _ e => rw [e]; exact Nat.le_refl _
  | recover running e => rw [e]; exact Nat.le_refl _
  | notice here new why e => rw [e]; exact Nat.le_of_lt new
  | schedule here new idle left entered e => rw [e]; exact Nat.le_of_lt new

theorem Change.failures_le_handled (h : Change S admits who s s') (meek : Deed.IsMeek admits)
    (other : ∀ i, who ≠ some (.cycle i)) (hf : s.Fits S)
    (known : s.failures p ≤ (s.account p).handled) : s'.failures p ≤ (s'.account p).handled :=
  Nat.le_trans (h.failures_le meek other) (Nat.le_trans known (h.handled_mono hf))

theorem Change.status_eq_failed (h : Change S admits who s s') (meek : Deed.IsMeek admits)
    (other : ∀ i, who ≠ some (.cycle i))
    (failed : ∀ l, s.lifecycle? p = some l → l.status = .failed)
    {l' : Lifecycle} (hl' : s'.lifecycle? p = some l') : l'.status = .failed := by
  obtain ⟨l, hl, status, -⟩ := h.lifecycle_of_other meek other hl'
  exact status.trans (failed l hl)

/-- Others leave a cycle its turn. -/
theorem Change.cycle_keeps_turn (h : Change S admits who s s') (meek : Deed.IsMeek admits)
    (other : ∀ i, who ≠ some (.cycle i)) (begun : who = some .host → s.host ≠ .fresh)
    (hf : s.Fits S) (one : ∀ i k, s.IsGoing p i → s.IsGoing p k → i = k)
    (calm : ∀ j, ¬ s.IsRestarting p j) (known : s.failures p ≤ (s.account p).handled)
    (startable : ∀ (i : Nat) (c : Cycle) (l : Lifecycle), s.cycles[i]? = some c → c.place = p →
      c.stage = .fresh → s.lifecycle? p = some l → l.status.allows .starting = true) :
    State.Turn p s' := by
  have before : ∀ {i}, s'.IsGoing p i → s.IsGoing p i := by
    intro i hi
    refine (h.isGoing_before hf begun hi).resolve_right ?_
    rintro ⟨-, -, j, -, starts⟩
    exact calm j starts.isRestarting
  refine .cycle (fun i k hi hk ↦ one i k (before hi) (before hk)) (fun j hj ↦ ?_)
    (h.failures_le_handled meek other hf known) fun i c' l' hc' place fresh hl' ↦ ?_
  · rcases h.isRestarting_before hf hj with there | ⟨-, -, new, -⟩
    · exact calm j there
    · exact absurd new (Nat.not_lt_of_le known)
  · obtain ⟨l, hl, status, -⟩ := h.lifecycle_of_other meek other hl'
    rw [status]
    rcases h.cycle_of_other (other i) hc' with ⟨c, hc, same, stays | ⟨isOver, -⟩⟩ | ⟨none, -⟩
    · exact startable i c l hc (same.symm.trans place) (stays.symm.trans fresh) hl
    · rw [fresh] at isOver
      cases isOver
    · obtain ⟨c, hc, -⟩ := before ⟨c', hc', place, by rw [fresh]; nofun⟩
      rw [none] at hc
      cases hc

/-- A watcher passes the turn to a restart. -/
theorem Change.failure_passes_turn (h : Change S admits who s s') (meek : Deed.IsMeek admits)
    (other : ∀ i, who ≠ some (.cycle i)) (begun : who = some .host → s.host ≠ .fresh)
    (hf : s.Fits S) (ended : ∀ i, ¬ s.IsGoing p i) (calm : ∀ j, ¬ s.IsRestarting p j)
    (failed : ∀ l, s.lifecycle? p = some l → l.status = .failed) : State.Turn p s' := by
  have ended' : ∀ i, ¬ s'.IsGoing p i := by
    intro i hi
    rcases h.isGoing_before hf begun hi with there | ⟨-, -, j, -, starts⟩
    · exact ended i there
    · exact calm j starts.isRestarting
  have acted : ∀ {j}, s'.IsRestarting p j →
      j = s.restarts.size ∧ (s'.account p).handled = s.failures p := by
    intro j hj
    rcases h.isRestarting_before hf hj with there | ⟨-, new, -, acted⟩
    · exact absurd there (calm j)
    · exact ⟨new, acted⟩
  by_cases scheduled : ∃ j, s'.IsRestarting p j
  · obtain ⟨j, hj⟩ := scheduled
    have one : ∀ j k, s'.IsRestarting p j → s'.IsRestarting p k → j = k :=
      fun j k hj hk ↦ (acted hj).1.trans (acted hk).1.symm
    refine .restart ended' one ?_ fun l' hl' ↦ h.status_eq_failed meek other failed hl'
    rw [(acted hj).2]
    exact h.failures_le meek other
  · exact .failure ended' (fun j hj ↦ scheduled ⟨j, hj⟩) fun l' hl' ↦
      h.status_eq_failed meek other failed hl'

/-- A restart passes the turn to the cycle that it starts. -/
theorem Change.restart_passes_turn (h : Change S admits who s s') (meek : Deed.IsMeek admits)
    (other : ∀ i, who ≠ some (.cycle i)) (begun : who = some .host → s.host ≠ .fresh)
    (hf : s.Fits S) (ended : ∀ i, ¬ s.IsGoing p i)
    (one : ∀ j k, s.IsRestarting p j → s.IsRestarting p k → j = k)
    (known : s.failures p ≤ (s.account p).handled)
    (failed : ∀ l, s.lifecycle? p = some l → l.status = .failed) : State.Turn p s' := by
  have before : ∀ {j}, s'.IsRestarting p j → s.IsRestarting p j := fun hj ↦
    (h.isRestarting_before hf hj).resolve_right fun ⟨_, _, new, _⟩ ↦
      absurd new (Nat.not_lt_of_le known)
  have started : ∀ {i}, s'.IsGoing p i →
      i = s.cycles.size ∧ ∃ j, who = some (.restart j) ∧ s.IsAboutToStart j p := by
    intro i hi
    rcases h.isGoing_before hf begun hi with there | ⟨new, -, starts⟩
    · exact absurd there (ended i)
    · exact ⟨new, starts⟩
  by_cases comes : ∃ i, s'.IsGoing p i
  · obtain ⟨i, hi⟩ := comes
    obtain ⟨new, j, rfl, starts⟩ := started hi
    obtain ⟨c, hc, -⟩ := hi
    have size : s'.cycles.size ≠ s.cycles.size := by
      obtain ⟨hlt, -⟩ := Array.getElem?_eq_some_iff.1 hc
      exact Nat.ne_of_gt (new ▸ hlt)
    refine .cycle (fun i k hi hk ↦ (started hi).1.trans (started hk).1.symm) (fun k hk ↦ ?_)
      (h.failures_le_handled meek other hf known) fun k e l' he place fresh hl' ↦ ?_
    · have same := one k j (before hk) starts.isRestarting
      subst same
      exact h.restart_ends starts.isRestarting size hk
    · rw [h.status_eq_failed meek other failed hl']
      rfl
  · exact .restart (fun i hi ↦ comes ⟨i, hi⟩) (fun j k hj hk ↦ one j k (before hj) (before hk))
      (h.failures_le_handled meek other hf known)
      fun l' hl' ↦ h.status_eq_failed meek other failed hl'

/-- **What others make of the turn**: watchers put a restart on the calendar, and the restart starts
the next cycle. -/
theorem Change.passes_turn (h : Change S admits who s s') (meek : Deed.IsMeek admits)
    (other : ∀ i, who ≠ some (.cycle i)) (begun : who = some .host → s.host ≠ .fresh)
    (hf : s.Fits S) (turn : State.Turn p s) : State.Turn p s' := by
  cases turn with
  | cycle one calm known startable =>
    exact h.cycle_keeps_turn meek other begun hf one calm known startable
  | failure ended calm failed => exact h.failure_passes_turn meek other begun hf ended calm failed
  | restart ended one known failed =>
    exact h.restart_passes_turn meek other begun hf ended one known failed

/-! ### The first run -/

theorem Changes.lifecycle_of_other (h : Changes S admits who s s') (meek : Deed.IsMeek admits)
    (other : ∀ i, who ≠ some (.cycle i)) {l' : Lifecycle} (hl' : s'.lifecycle? p = some l') :
    ∃ l, s.lifecycle? p = some l ∧ l'.status = l.status ∧ l'.failures = l.failures := by
  induction h generalizing l' with
  | refl => exact ⟨l', hl', rfl, rfl⟩
  | tail _ last ih =>
    obtain ⟨m, hm, status, failures⟩ := last.lifecycle_of_other meek other hl'
    obtain ⟨l, hl, status', failures'⟩ := ih hm
    exact ⟨l, hl, status.trans status', failures.trans failures'⟩

theorem Changes.passes_turn (h : Changes S admits who s s') (meek : Deed.IsMeek admits)
    (other : ∀ i, who ≠ some (.cycle i)) (begun : who = some .host → s.host ≠ .fresh)
    (ho : s.IsOrderly) (hf : s.Fits S) (turn : ∀ p, State.Turn p s) : ∀ p, State.Turn p s' := by
  refine (h.keeps (P := fun t ↦ t.Fits S ∧ (who = some .host → t.host ≠ .fresh) ∧
    ∀ p, State.Turn p t) (fun {t t'} _ hP change ↦ ?_) ho ⟨hf, begun, turn⟩).2.2.2
  obtain ⟨hf, begun, turn⟩ := hP
  refine ⟨change.fits hf, fun host ↦ ?_, fun p ↦ change.passes_turn meek other begun hf (turn p)⟩
  rcases change.host with same | ⟨-, moved, -⟩ | ⟨nobody, -⟩
  · exact same ▸ begun host
  · exact moved
  · rw [host] at nobody
    cases nobody

/-- A step of a cycle is the cycle's alone: it leaves restarts and accounts as they are. -/
theorem Change.of_cycle {i : Nat} (h : Change S admits (some (.cycle i)) s s') (p : Nat) :
    s'.restarts = s.restarts ∧ s'.account p = s.account p := by
  have members : ∀ {t : State}, t.restarts = s.restarts → t.members = s.members →
      t.restarts = s.restarts ∧ t.account p = s.account p :=
    fun restarts same ↦ ⟨restarts, State.account_of_members same p⟩
  cases h with
  | mark hm own => exact members (by rw [State.mark_frame hm]) (by rw [State.mark_frame hm])
  | begin hc fresh hm =>
    exact members (by rw [State.mark_frame hm]; rfl) (by rw [State.mark_frame hm]; rfl)
  | request c => exact members (by rw [State.request_frame]) (by rw [State.request_frame])
  | count place => exact ⟨rfl, State.account_modifyMember s place (by intro; rfl) p⟩
  | _ => exact members rfl rfl

theorem Changes.of_cycle {i : Nat} (h : Changes S admits (some (.cycle i)) s s') (p : Nat) :
    s'.restarts = s.restarts ∧ s'.account p = s.account p := by
  induction h with
  | refl => exact ⟨rfl, rfl⟩
  | tail _ last ih =>
    obtain ⟨restarts, account⟩ := last.of_cycle p
    exact ⟨restarts.trans ih.1, account.trans ih.2⟩

namespace State

/-- Nothing was ever started. -/
structure IsUntouched (s : State) : Prop where
  cycles : s.cycles = #[]
  restarts : s.restarts = #[]
  lifecycles : ∀ p l, s.lifecycle? p = some l → l.status = .notStarted ∧ l.failures = 0

/-- It is somebody's turn with each resource, and as long as the host has not begun, nothing was
started. -/
structure IsInTurn (s : State) : Prop where
  turn : ∀ p, s.Turn p
  first : s.host = .fresh → s.IsUntouched

theorem IsUntouched.failures (h : s.IsUntouched) (p : Nat) : s.failures p = 0 := by
  cases hl : s.lifecycle? p with
  | none =>
    unfold State.failures
    rw [hl]
    rfl
  | some l => exact (failures_eq hl).trans (h.lifecycles p l hl).2

theorem IsUntouched.turn (h : s.IsUntouched) (p : Nat) : s.Turn p := by
  have none : ∀ {i : Nat} {c : Cycle}, s.cycles[i]? ≠ some c := by
    intro i c
    rw [h.cycles]
    nofun
  refine .cycle ?_ ?_ ?_ ?_
  · rintro i k ⟨c, hc, -⟩
    exact absurd hc none
  · rintro j ⟨r, hr, -⟩
    rw [h.restarts] at hr
    cases hr
  · rw [h.failures]
    exact Nat.zero_le _
  · exact fun i c l hc ↦ absurd hc none

end State

/-- As long as the host has not begun, nobody starts anything. -/
theorem Change.isUntouched (h : Change S admits who s s') (meek : Deed.IsMeek admits)
    (other : ∀ i, who ≠ some (.cycle i)) (host : who ≠ some .host) (hs : s.IsUntouched) :
    s'.IsUntouched where
  cycles := by
    rcases h.cycles with e | ⟨place, -, -, ⟨own, -⟩ | ⟨j, -, starts⟩⟩ | ⟨i, stage, e, -⟩ | ⟨i, e⟩
    · exact e.trans hs.cycles
    · exact absurd own host
    · obtain ⟨stage, hr⟩ := starts.restart
      rw [hs.restarts] at hr
      cases hr
    · rw [e, State.setCycle, hs.cycles]
      rfl
    · have told : (s.cancelCycle i).cycles
          = s.cycles.modify i fun c ↦ { c with cancelled := true } := rfl
      rw [e, told, hs.cycles]
      rfl
  restarts := by
    rcases h.restarts with e | ⟨i, place, delay, -, -, -, new, -⟩ | ⟨j, stage, -, e⟩
    · exact e.trans hs.restarts
    · rw [hs.failures] at new
      cases new
    · rw [e, State.setRestart, hs.restarts]
      rfl
  lifecycles p l' hl' := by
    obtain ⟨l, hl, status, failures⟩ := h.lifecycle_of_other meek other hl'
    rw [status, failures]
    exact hs.lifecycles p l hl

/-- The first run begins with one cycle of each resource, which may start. -/
theorem State.IsUntouched.isInTurn_stepHost (hs : s.IsUntouched) (fresh : s.host = .fresh)
    (meek : Deed.IsMeek admits) (ho : s.IsOrderly) (hf : s.Fits S) : (s.stepHost S).IsInTurn := by
  have begins : s.stepHost S = s.beginRun S := by
    unfold stepHost
    rw [fresh]
  have start : (s.stepHost S).IsAtStart :=
    begins ▸ IsFirstRun.isAtStart ⟨fresh, hs.cycles, hs.restarts⟩ hf
  have chain : Changes S admits (some .host) s (s.stepHost S) := changes_stepHost s ho
  have still : ∀ p l, (s.stepHost S).lifecycle? p = some l →
      l.status = .notStarted ∧ l.failures = 0 := by
    intro p l' hl'
    obtain ⟨l, hl, status, failures⟩ := chain.lifecycle_of_other meek nofun hl'
    rw [status, failures]
    exact hs.lifecycles p l hl
  refine ⟨fun p ↦ .cycle ?_ ?_ ?_ ?_, fun unbegun ↦ ?_⟩
  · rintro i k ⟨c, hc, rfl, -⟩ ⟨d, hd, place, -⟩
    have current := start.current i c hc
    rw [← place, start.current k d hd] at current
    exact (Option.some.inj current).symm
  · rintro j ⟨r, hr, -⟩
    rw [start.calm] at hr
    cases hr
  · cases hl : (s.stepHost S).lifecycle? p with
    | none =>
      unfold State.failures
      rw [hl]
      exact Nat.zero_le _
    | some l =>
      rw [failures_eq hl, (still p l hl).2]
      exact Nat.zero_le _
  · intro i c l hc place unbegun hl
    rw [(still p l hl).1]
    rfl
  · rw [begins] at unbegun
    cases unbegun

/-- **Every step of the first run leaves each resource in somebody's hands.** -/
theorem Step.isInTurn (h : Step S admits s s') (alone : ¬ admits .call) (hooks : S.IsMeek)
    (deeds : Deed.IsMeek admits) (ho : s.IsOrderly) (hf : s.Fits S) (steady : s.IsSteady)
    (hs : s.IsInTurn) : s'.IsInTurn := by
  have begun : s.host ≠ .fresh → s'.host ≠ .fresh := h.hasBegun alone ho
  rcases h.turn_or_changes ho (fun t ↦ t = .host ∨ ∃ i, t = .cycle i) with
    ⟨_, rfl | ⟨i, rfl⟩, rfl⟩ | ⟨who, others, hc⟩
  · by_cases fresh : s.host = .fresh
    · exact (hs.first fresh).isInTurn_stepHost fresh deeds ho hf
    · have chain : Changes S admits (some .host) s (s.step S .host) := State.changes_step .host s ho
      exact ⟨chain.passes_turn deeds nofun (fun _ ↦ fresh) ho hf hs.turn,
        fun unbegun ↦ absurd unbegun (begun fresh)⟩
  · cases hc : s.cycles[i]? with
    | none =>
      rw [State.step_cycle_of_none hc]
      exact hs
    | some c =>
      have chain : Changes S admits (some (.cycle i)) s (s.step S (.cycle i)) :=
        State.changes_step (.cycle i) s ho
      refine ⟨fun p ↦ ?_, fun unbegun ↦ absurd unbegun (begun fun fresh ↦ ?_)⟩
      · obtain ⟨restarts, account⟩ := chain.of_cycle p
        exact (State.cycleStep_step hc).passes_turn hooks hc hf steady restarts account
          (hs.turn p)
      · rw [(hs.first fresh).cycles] at hc
        cases hc
  · have other : ∀ i, who ≠ some (.cycle i) := fun i ↦ others _ (.inr ⟨i, rfl⟩)
    have host : who ≠ some .host := others _ (.inl rfl)
    refine ⟨hc.passes_turn deeds other (fun own ↦ absurd own host) ho hf hs.turn, fun unbegun ↦ ?_⟩
    have fresh : s.host = .fresh := Classical.byContradiction fun ran ↦ begun ran unbegun
    exact (hc.keeps (P := State.IsUntouched)
      (fun _ ht change ↦ change.isUntouched deeds other host ht) ho (hs.first fresh)).2

/-- Resources of which no cycle was ever started have not been started. -/
theorem Reaches.notStarted {bus : Bus} {recorder : Option Recorder} {now : Nat}
    (run : Reaches S admits (State.initial S bus recorder now) s) (deeds : Deed.IsMeek admits)
    (none : s.cycles = #[]) {l : Lifecycle} (hl : s.lifecycle? p = some l) :
    l.status = .notStarted ∧ l.failures = 0 := by
  suffices ∀ {t}, Reaches S admits (State.initial S bus recorder now) t → t.IsOrderly ∧
      (t.cycles.size = 0 → ∀ p l, t.lifecycle? p = some l → l.status = .notStarted ∧ l.failures = 0)
    from (this run).2 (by rw [none]; rfl) p l hl
  intro t reached
  refine reached.keeps (P := fun t ↦ t.IsOrderly ∧ (t.cycles.size = 0 → ∀ p l,
    t.lifecycle? p = some l → l.status = .notStarted ∧ l.failures = 0)) (fun {t t'} ht step ↦ ?_)
    ⟨State.isOrderly_initial S bus recorder now, fun _ p l hl ↦ ?_⟩
  · obtain ⟨ho, before⟩ := ht
    refine ⟨step.isOrderly ho, fun empty p l' hl' ↦ ?_⟩
    obtain ⟨who, chain⟩ := step.changes ho
    have none : t.cycles.size = 0 := Nat.eq_zero_of_le_zero (empty ▸ chain.le_cycles)
    rcases step.turn_or_changes ho (fun t ↦ ∃ i, t = .cycle i) with
      ⟨_, ⟨i, rfl⟩, rfl⟩ | ⟨who, others, hc⟩
    · have nobody : t.cycles[i]? = Option.none :=
        Array.getElem?_eq_none (none ▸ Nat.zero_le i)
      rw [State.step_cycle_of_none nobody] at hl'
      exact before none p l' hl'
    · obtain ⟨l, hl, status, failures⟩ :=
        hc.lifecycle_of_other deeds (fun i ↦ others _ ⟨i, rfl⟩) hl'
      rw [status, failures]
      exact before none p l hl
  · obtain ⟨name, rfl⟩ := State.lifecycle?_initial hl
    exact ⟨rfl, rfl⟩

/-- **In the first run, every cycle that has not begun may begin**, where everybody leaves the
status alone. -/
theorem Reaches.begins_of_fresh {bus : Bus} {recorder : Option Recorder} {now i : Nat} {c : Cycle}
    {s₀ : State} (before : Reaches S admits (State.initial S bus recorder now) s₀)
    (first : s₀.IsFirstRun) (later : Reaches S (fun d ↦ admits d ∧ d ≠ .call) s₀ s)
    (hooks : S.IsMeek) (deeds : Deed.IsMeek admits) (hc : s.cycles[i]? = some c)
    (fresh : c.stage = .fresh) : s.Begins i c.place := by
  have untouched : s₀.IsUntouched :=
    ⟨first.cycles, first.restarts, fun p l hl ↦ before.notStarted deeds first.cycles hl⟩
  have still : Deed.IsMeek fun d ↦ admits d ∧ d ≠ .call := fun p m ⟨admitted, _⟩ ↦
    deeds p m admitted
  obtain ⟨sound, -, inTurn⟩ := later.keeps
    (P := fun t ↦ t.IsSound S ∧ t.IsSteady ∧ t.IsInTurn) (fun ht step ↦
      ⟨step.isSound ht.1, step.isSteady hooks still ht.1.orderly ht.1.fits ht.2.1,
        step.isInTurn (fun called ↦ called.2 rfl) hooks still ht.1.orderly ht.1.fits ht.2.1
          ht.2.2⟩)
    ⟨before.isSound, before.isSteady hooks deeds, untouched.turn, fun _ ↦ untouched⟩
  obtain ⟨l, hl⟩ := sound.fits.exists_lifecycle (sound.fits.cycles i c hc)
  have going : s.IsGoing c.place i := ⟨c, hc, rfl, by rw [fresh]; nofun⟩
  refine ⟨c, l, hc, rfl, fresh, hl, ?_⟩
  cases inTurn.turn c.place with
  | cycle one calm known startable => exact startable i c l hc rfl fresh hl
  | failure ended => exact absurd going (ended i)
  | restart ended => exact absurd going (ended i)

end Run

end Supervision
