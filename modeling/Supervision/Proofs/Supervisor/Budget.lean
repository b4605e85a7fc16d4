import Supervision.Proofs.Supervisor.Balance
import Supervision.Proofs.Supervisor.Schedule
import Supervision.Proofs.Supervisor.Entries
import Supervision.Proofs.Supervisor.Halves

/-!
# The budget of restarts

A watcher that is told of a failure answers it at most once: it schedules a restart, or says that
none are left, and takes note of the failure. A confirmation that sees its resource ready begins a
new count. Whatever else happens says nothing of restarts (`Change.quiet_or`), so what is published
of them is a ledger of the account that is kept (`State.KeepsLedger`), however often the watcher is
told of the same failure, and whichever confirmation comes first.

A confirmation that waits has not seen its resource ready before (`State.IsPatient`), so when it
tells of a recovery, the resource is ready at that moment.

The ledger is the supervisor's own. Somebody outside who publishes such events on its bus is not
told from it, and who is held up in the middle of a step has counted what is not said yet
(`HeldUp.not_isLedger`).

* `Change.keepsLedger` — every change keeps the ledger.
* `Step.isMute` — a step tells of a recovery only while the resource runs and is ready.
* `restarts_keep_budget` — both, over whole runs.
-/

namespace Supervision

namespace Backoff

/-- A delay that is not spread does not depend on the dice. -/
theorem delay_of_none {b : Backoff} (steady : b.jitter = .none) (roll roll' n : Nat) :
    b.delay roll n = b.delay roll' n := by
  have same : b.jitter.apply roll = b.jitter.apply roll' := by
    funext d
    rw [steady, Jitter.apply_none, Jitter.apply_none]
  unfold delay
  rw [same]

end Backoff

/-! ### Who is quiet -/

namespace State

variable {S : Setup} {s t u : State} {p : Nat} {name : String}

/-- From one state to another, nothing is said of the restarts of a resource, and its count of them
stays. -/
structure IsQuiet (p : Nat) (name : String) (s t : State) : Prop where
  restarts : (t.account p).attempts = (s.account p).attempts
  handled : (s.account p).handled ≤ (t.account p).handled
  news : Says (fun e ↦ e.resource = some name → e.kind.isRestart = false) s t

namespace IsQuiet

theorem of_events (account : t.account p = s.account p) (events : t.events = s.events) :
    IsQuiet p name s t where
  restarts := by rw [account]
  handled := Nat.le_of_eq (by rw [account])
  news := .of_events events

theorem of_eq (members : t.members = s.members) (chronicle : t.chronicle = s.chronicle) :
    IsQuiet p name s t :=
  of_events (account_of_members members p) (events_of_chronicle chronicle)

theorem trans (h : IsQuiet p name s t) (h' : IsQuiet p name t u) : IsQuiet p name s u where
  restarts := h'.restarts.trans h.restarts
  handled := Nat.le_trans h.handled h'.handled
  news := h.news.trans h'.news

theorem enter (h : IsQuiet p name s t) {what : Happening} (quiet : what.isPublication = false) :
    IsQuiet p name s (t.enter what) :=
  h.trans (of_events rfl (events_enter_of_quiet quiet))

theorem publishAll {es : List Event} (h : IsQuiet p name s t)
    (quiet : ∀ e ∈ es, e.resource = some name → e.kind.isRestart = false) :
    IsQuiet p name s (t.publishAll es) := by
  have account : (t.publishAll es).account p = t.account p :=
    account_of_members (by rw [publishAll_eq]) p
  exact h.trans ⟨by rw [account], Nat.le_of_eq (by rw [account]), es, events_publishAll es t, quiet⟩

theorem publish {e : Event} (h : IsQuiet p name s t)
    (quiet : e.resource = some name → e.kind.isRestart = false) :
    IsQuiet p name s (t.publish e) := by
  have said : IsQuiet p name s (t.publishAll [e]) := h.publishAll (by simpa using quiet)
  exact said

end IsQuiet

theorem isQuiet_request (c : Cause) (s : State) : IsQuiet p name s (s.request c).2 := by
  have quiet : ∀ e ∈ (s.ensemble.shutdown.request c).2.2, e.kind.isRestart = false := by
    intro e he
    unfold Shutdown.request at he
    cases hc : s.ensemble.shutdown.cause with
    | some d =>
      rw [hc] at he
      cases he
    | none =>
      rw [hc] at he
      cases List.mem_singleton.1 he
      rfl
  have said : IsQuiet p name s (({ s with
      ensemble := { s.ensemble with shutdown := (s.ensemble.shutdown.request c).2.1 }
      : State }.publishAll (s.ensemble.shutdown.request c).2.2)) :=
    .publishAll (.of_eq rfl rfl) fun e he _ ↦ quiet e he
  rw [request_eq]
  exact said.enter (by rfl)

theorem isQuiet_mark {place : Nat} {m : Mark} (h : s.mark place m = .ok t) :
    IsQuiet p name s t := by
  rcases mark_cases h with ⟨-, rfl⟩ | ⟨c, c', published, -, hm, rfl⟩
  · exact .of_eq rfl rfl
  · refine .publishAll (.of_eq rfl rfl) fun e he about ↦ ?_
    obtain ⟨x, hx, rfl⟩ := List.mem_map.1 he
    exact EventKind.isRestart_of_isNews (Lifecycle.kind_of_mem_mark hm x hx)

theorem isQuiet_startCycle (place : Nat) (s : State) : IsQuiet p name s (s.startCycle place) :=
  .of_events (account_startCycle place p) (events_enter_of_quiet (by rfl))

theorem isQuiet_startRestart (place : Nat) (delay : Span) (s : State) :
    IsQuiet p name s (s.startRestart place delay) :=
  .of_events rfl (events_enter_of_quiet (by rfl))

theorem isQuiet_endRestart (i : Nat) (s : State) : IsQuiet p name s (s.endRestart i) := by
  have set : IsQuiet p name s (s.setRestart i .finished) := .of_eq rfl rfl
  exact set.enter (by rfl)

theorem isQuiet_respawn (i place : Nat) (s : State) : IsQuiet p name s (s.respawn i place) := by
  unfold respawn
  split
  · exact isQuiet_endRestart i s
  · exact (isQuiet_startCycle place s).trans (isQuiet_endRestart i _)

theorem isQuiet_release (i place : Nat) (s : State) : IsQuiet p name s (s.release i place) := by
  have account : (s.setAccount place (s.account place).release).account p
      = if p = place ∧ p < s.members.size then (s.account place).release else s.account p :=
    account_setAccount place _ p
  have freed : IsQuiet p name s (s.setAccount place (s.account place).release) := by
    refine ⟨?_, ?_, [], (List.append_nil _).symm, fun _ he ↦ absurd he List.not_mem_nil⟩
    · rw [account]
      split
      · rename_i hp
        rw [hp.1]
        rfl
      · rfl
    · rw [account]
      split
      · rename_i hp
        rw [hp.1]
        exact Nat.le_refl _
      · exact Nat.le_refl _
  have h := release_release i place s
  generalize s.release i place = t at h ⊢
  cases h with
  | abandoned ha => exact freed.trans (isQuiet_endRestart i _)
  | @joins m c here hm hc =>
    have taken : IsQuiet p name (s.setAccount place (s.account place).release)
        ((s.setAccount place (s.account place).release).modifyMember place
          fun m ↦ { m with run := none }) :=
      .of_events (account_modifyMember _ place (by intro; rfl) p) rfl
    have told : IsQuiet p name s
        (((s.setAccount place (s.account place).release).modifyMember place
          fun m ↦ { m with run := none }).cancelCycle c) :=
      .trans (freed.trans taken) (.of_events rfl (events_enter_of_quiet (by rfl)))
    exact told.trans (.of_eq rfl rfl)
  | starts here going hc =>
    exact freed.trans ((isQuiet_startCycle place _).trans (isQuiet_endRestart i _))

end State

/-- Only a watcher and a confirmation say something of restarts, or somebody outside. -/
theorem Change.quiet_or {S : Setup} {admits : Deed → Prop} {who : Option Task} {s s' : State}
    {p : Nat} {name : String}
    (honest : ∀ e, admits (.publish e) → e.resource = some name → e.kind.isRestart = false)
    (h : Change S admits who s s') :
    State.IsQuiet p name s s' ∨
      (∃ resource reason, s' = (s.onFailed S resource reason).state) ∨
      (∃ i, who = some (.confirmation i)) ∧ ∃ place, s' = s.confirm S place := by
  cases h with
  | heed resource reason => exact .inr (.inl ⟨resource, reason, rfl⟩)
  | @confirm i s before c hc hr hb => exact .inr (.inr ⟨⟨i, rfl⟩, c.place, rfl⟩)
  | note what own => exact .inl (.of_events rfl (State.events_enter_of_quiet own.quiet))
  | report e report own =>
    refine .inl (.publish (.of_eq rfl rfl) fun _ ↦ ?_)
    cases kind : e.kind <;> rw [kind] at report <;> first | rfl | cases report
  | publish e he => exact .inl (.publish (.of_eq rfl rfl) (honest e he))
  | request c => exact .inl (State.isQuiet_request c s)
  | mark hm own => exact .inl (State.isQuiet_mark hm)
  | begin hc fresh hm => exact .inl ((State.isQuiet_mark hm).trans (.of_eq rfl rfl))
  | count place =>
    exact .inl (.of_events (State.account_modifyMember _ place (by intro; rfl) p) rfl)
  | spawn hh hp => exact .inl (State.isQuiet_startCycle _ _)
  | cancel i => exact .inl (.of_events rfl (State.events_enter_of_quiet (by rfl)))
  | abort i hs => exact .inl (.of_events rfl (State.events_enter_of_quiet (by rfl)))
  | close hr => exact .inl (.of_events (State.account_close p) rfl)
  | await place => exact .inl (.of_events rfl (State.events_enter_of_quiet (by rfl)))
  | release hr waits due => exact .inl (State.isQuiet_release _ _ _)
  | respawn hr gone => exact .inl (State.isQuiet_respawn _ _ _)
  | _ => exact .inl (.of_eq rfl rfl)

/-! ### The ledger is kept -/

namespace State

variable {S : Setup} {s t : State} {p : Nat} {name : String}

/-- What is published about the restarts of the resource in a place is a ledger of its account. -/
def KeepsLedger (S : Setup) (p : Nat) (name : String) (s : State) : Prop :=
  S.IsLedger name s.events (s.account p).attempts (s.account p).handled

theorem KeepsLedger.of_quiet (h : s.KeepsLedger S p name) (quiet : IsQuiet p name s t) :
    t.KeepsLedger S p name := by
  obtain ⟨more, events, news⟩ := quiet.news
  unfold KeepsLedger
  rw [quiet.restarts, events]
  exact (h.append news).mono quiet.handled

/-- A watcher that is told of a failure of another resource says nothing of this one. -/
theorem isQuiet_onFailed {resource : String} (reason : String) (hp : S.place? name = some p)
    (other : resource ≠ name) : IsQuiet p name s (s.onFailed S resource reason).state := by
  have elsewhere : ∀ {q}, S.place? resource = some q → p ≠ q := by
    rintro q hq rfl
    obtain ⟨post, hpost, rfl⟩ := Setup.exists_post_of_place? hp
    obtain ⟨post', hpost', rfl⟩ := Setup.exists_post_of_place? hq
    rw [hpost] at hpost'
    cases hpost'
    exact other rfl
  have set : ∀ {q} (a : Account), S.place? resource = some q →
      IsQuiet p name s (s.setAccount q a) :=
    fun a hq ↦ .of_events (account_setAccount_of_ne a (elsewhere hq)) rfl
  have h := heed_onFailed S resource reason s
  generalize s.onFailed S resource reason = r at h ⊢
  cases h with
  | ignored _ => exact .of_eq rfl rfl
  | broken hq here hd left => exact .of_eq rfl rfl
  | old hq here known => exact set _ hq
  | pending hq here new busy => exact set _ hq
  | exhausted hq here new spent =>
    refine .trans (.publish (set _ hq) fun about ↦ ?_) (isQuiet_request _ _)
    exact absurd (Option.some.inj about) other
  | @restart q delay hq here new idle left hd =>
    have rolled : IsQuiet p name s
        { s.setAccount q ⟨(s.account q).attempts + 1, true, s.failures q⟩ with
          rolls := s.rolls + 1 } := (set _ hq).trans (.of_eq rfl rfl)
    have said := rolled.publish (e := .scheduled resource ((s.account q).attempts + 1) delay reason)
      fun about ↦ absurd (Option.some.inj about) other
    exact said.trans (isQuiet_startRestart q delay _)

/-- A watcher that is told of a failure keeps the ledger. -/
theorem KeepsLedger.onFailed (h : s.KeepsLedger S p name)
    (steady : S.settings.backoff.jitter = .none) (fits : s.Fits S)
    (hp : S.place? name = some p) (resource reason : String) :
    (s.onFailed S resource reason).state.KeepsLedger S p name := by
  by_cases about : resource = name
  -- Every answer is one entry more, and takes note of the failure that it answers to.
  · subst about
    have here : p < s.members.size := fits.size ▸ Setup.lt_of_place? hp
    have heed := heed_onFailed S resource reason s
    generalize s.onFailed S resource reason = r at heed ⊢
    cases heed with
    | ignored _ => exact h
    | broken hq here hd left => exact h
    | old hq _ known =>
      cases hp.symm.trans hq
      exact h.of_quiet (.of_events (account_setAccount_self _ here) rfl)
    | pending hq _ new busy =>
      cases hp.symm.trans hq
      unfold KeepsLedger
      dsimp only
      rw [account_setAccount_self _ here]
      exact h.mono (Nat.le_of_lt new)
    | exhausted hq _ new spent =>
      cases hp.symm.trans hq
      refine KeepsLedger.of_quiet ?_ (isQuiet_request _ _)
      unfold KeepsLedger
      rw [events_publish, show (publish _ (s.setAccount p _)).account p = _ from
        account_setAccount_self _ here]
      exact h.exhaust spent new reason
    | @restart q delay hq _ new idle left hd =>
      cases hp.symm.trans hq
      have every : ∀ roll, S.settings.backoff.delay roll (s.account p).attempts = .ok delay :=
        fun roll ↦ (Backoff.delay_of_none steady _ _ _).trans hd
      refine KeepsLedger.of_quiet ?_ (isQuiet_startRestart p delay _)
      unfold KeepsLedger
      rw [events_publish, show (publish _ { s.setAccount p _ with rolls := _ }).account p = _ from
        account_setAccount_self _ here]
      exact h.schedule left every new reason
  · exact h.of_quiet (isQuiet_onFailed reason hp about)

/-- A confirmation of another resource says nothing of this one. -/
theorem isQuiet_confirm {place : Nat} (distinct : S.names.Nodup) (fits : s.Fits S)
    (hp : S.place? name = some p) (other : place ≠ p) :
    IsQuiet p name s (s.confirm S place) := by
  unfold confirm takeCount tellRecovery
  split
  · rename_i running
    obtain ⟨l, hl, -⟩ := Option.map_eq_some_iff.1 running
    obtain ⟨post, hpost, -⟩ := fits.exists_post hl
    have elsewhere : post.name ≠ name := by
      rintro rfl
      rw [Setup.place?_name distinct hpost] at hp
      cases hp
      exact other rfl
    have set : IsQuiet p name s (s.setAccount place (s.account place).recover) :=
      .of_events (account_setAccount_of_ne _ (Ne.symm other)) rfl
    dsimp only
    rw [hpost]
    split
    · exact set.publish fun about ↦ absurd (Option.some.inj about) elsewhere
    · exact set
  · exact .of_eq rfl rfl

/-- A confirmation keeps the ledger. -/
theorem KeepsLedger.confirm (h : s.KeepsLedger S p name) (distinct : S.names.Nodup)
    (fits : s.Fits S) (hp : S.place? name = some p) (place : Nat) :
    (s.confirm S place).KeepsLedger S p name := by
  by_cases same : place = p
  · subst same
    obtain ⟨post, hpost, rfl⟩ := Setup.exists_post_of_place? hp
    have here : place < s.members.size := fits.size ▸ Setup.lt_of_place? hp
    unfold State.confirm takeCount tellRecovery
    split
    · dsimp only
      rw [hpost]
      split
      · rename_i restarted
        unfold KeepsLedger
        rw [events_publish, show (publish _ (s.setAccount place _)).account place = _ from
          account_setAccount_self _ here]
        exact h.recover restarted
      -- There is nothing to tell: the count was zero already.
      · rename_i none
        have zero : (s.account place).attempts = 0 := Nat.eq_zero_of_not_pos none
        refine h.of_quiet (.of_events ?_ rfl)
        rw [account_setAccount_self _ here]
        unfold Account.recover
        rw [← zero]
    · exact h
  · exact h.of_quiet (isQuiet_confirm distinct fits hp same)

theorem keepsLedger_initial (S : Setup) (bus : Bus) (recorder : Option Recorder) (now : Nat)
    (p : Nat) (name : String) : (State.initial S bus recorder now).KeepsLedger S p name := by
  unfold KeepsLedger
  rw [account_initial]
  exact Setup.isLedger_nil S name 0

end State

/-! ### When a recovery is told of -/

theorem Ensemble.entries_look {e : Ensemble} {w : Wait} {now place : Nat}
    (single : w.entries = [(place, none)]) :
    (e.look now w).entries =
      [(place, Wait.endNow? w.deadline now e.shutdown.isRequested (e.isReady place))] := by
  unfold look Wait.look
  dsimp only
  rw [single]
  rfl

namespace State

variable {S : Setup} {s t u : State} {p : Nat} {name : String}

/-- Every confirmation that waits waits for its own resource, and has not seen it ready. -/
def IsPatient (s : State) : Prop :=
  ∀ (i : Nat) (c : Confirmation) (w : Wait), s.confirmations[i]? = some c →
    c.stage = .waiting w → w.entries = [(c.place, none)]

theorem entries_of_linger {w : Wait} {place : Nat} (single : w.entries = [(place, none)])
    (h : (s.ensemble.look s.now w).result? = none) :
    (s.ensemble.look s.now w).entries = [(place, none)] := by
  have entries : (s.ensemble.look s.now w).entries = _ := Ensemble.entries_look single
  rw [entries]
  unfold Wait.result? at h
  rw [entries] at h
  cases settled : Wait.endNow? w.deadline s.now s.ensemble.shutdown.isRequested
      (s.ensemble.isReady place) with
  | none => rfl
  | some e =>
    rw [settled] at h
    cases h

/-- Whoever looks at one resource and sees it ready looks while it is ready, and before the shutdown
begins. -/
theorem isReady_of_look {w : Wait} {place : Nat} (single : w.entries = [(place, none)])
    (h : (s.ensemble.look s.now w).result? = some .ready) :
    s.ensemble.isReady place = true ∧ s.isRequested = false := by
  have ready := Wait.result?_eq_some_ready_iff.1 h
  rw [Ensemble.entries_look single] at ready
  have settled := ready _ List.mem_cons_self
  unfold Wait.endNow? at settled
  dsimp only at settled
  split at settled
  · cases settled
  · rename_i here
    split at settled
    · exact ⟨‹_›, Bool.eq_false_iff.2 here⟩
    · split at settled <;> cases settled

/-- From one state to another, no recovery of a resource is told of. -/
abbrev IsMute (name : String) (s t : State) : Prop :=
  Says (fun e ↦ e.resource = some name → e.kind ≠ .restartRecovered) s t

theorem IsQuiet.isMute (h : IsQuiet p name s t) : IsMute name s t := by
  refine h.news.mono fun e quiet about recovered ↦ ?_
  have kind := quiet about
  rw [recovered] at kind
  cases kind

/-- What a watcher makes of a failure is no recovery. -/
theorem isMute_onFailed (resource reason : String) (s : State) :
    IsMute name s (s.onFailed S resource reason).state := by
  have h := heed_onFailed S resource reason s
  generalize s.onFailed S resource reason = r at h ⊢
  cases h with
  | ignored _ => exact .of_events rfl
  | broken hq here hd left => exact .of_events rfl
  | old hq here known => exact .of_events rfl
  | pending hq here new busy => exact .of_events rfl
  | @exhausted q hq here new spent =>
    have asked : ∀ (c : Cause) (t : State), IsMute name t (t.request c).2 :=
      fun c t ↦ (isQuiet_request c t : IsQuiet q name _ _).isMute
    exact .trans (.publish (.of_events rfl) (by nofun)) (asked _ _)
  | @restart q delay hq here new idle left hd =>
    have entered : ∀ t : State, IsMute name t (t.startRestart q delay) :=
      fun t ↦ (isQuiet_startRestart q delay t : IsQuiet q name _ _).isMute
    exact .trans (.publish (.of_events rfl) (by nofun)) (entered _)

/-- A confirmation says nothing of the restarts of a resource, unless it is its own, and that runs
and is seen ready. -/
theorem isQuiet_confirmIn_or {i place : Nat} {w : Wait} (distinct : S.names.Nodup)
    (fits : s.Fits S) (hp : S.place? name = some p) :
    IsQuiet p name s (s.confirmIn S i place w) ∨ place = p ∧
      s.ensemble.status? p = some .running ∧
      (s.ensemble.look s.now w).result? = some .ready := by
  have left : ∀ t : State, IsQuiet p name t (t.endConfirmation i) := fun t ↦
    .of_events rfl (events_enter_of_quiet (by rfl))
  unfold confirmIn
  dsimp only
  split
  · exact .inl (.of_eq rfl rfl)
  · rename_i seen
    have fits' : (s.enter (.sawReady (.confirmation i) [place])).Fits S :=
      (Change.note (.sawReady _ _) rfl : Change S (fun _ ↦ False) (some (.confirmation i)) s _).fits
        fits
    have saw : IsQuiet p name s (s.enter (.sawReady (.confirmation i) [place])) :=
      .of_events rfl (events_enter_of_quiet (by rfl))
    by_cases same : place = p
    · subst same
      by_cases running : s.ensemble.status? place = some .running
      · exact .inr ⟨rfl, running, seen⟩
      · have stays : (s.enter (.sawReady (.confirmation i) [place])).confirm S place
            = s.enter (.sawReady (.confirmation i) [place]) := if_neg running
        rw [stays]
        exact .inl (saw.trans (left _))
    · exact .inl ((saw.trans (isQuiet_confirm distinct fits' hp same)).trans (left _))
  · exact .inl (left _)

/-- A confirmation tells of a recovery of its own resource only, and only when that runs and is
ready. -/
theorem isMute_confirmIn {i place : Nat} {w : Wait} (distinct : S.names.Nodup)
    (fits : s.Fits S) (hp : S.place? name = some p) (single : w.entries = [(place, none)]) :
    IsMute name s (s.confirmIn S i place w) ∨
      s.ensemble.status? p = some .running ∧ s.ensemble.isReady p = true := by
  have quiet_or : IsQuiet p name s (s.confirmIn S i place w) ∨ _ :=
    isQuiet_confirmIn_or distinct fits hp
  rcases quiet_or with quiet | ⟨rfl, running, seen⟩
  · exact .inl quiet.isMute
  · exact .inr ⟨running, (isReady_of_look single seen).1⟩

end State

section Run

variable {S : Setup} {admits : Deed → Prop} {who : Option Task} {s s' : State} {p : Nat}
  {name : String}

theorem Change.keepsLedger (steady : S.settings.backoff.jitter = .none)
    (distinct : S.names.Nodup) (hp : S.place? name = some p)
    (honest : ∀ e, admits (.publish e) → e.resource = some name → e.kind.isRestart = false)
    (h : Change S admits who s s') (fits : s.Fits S) (hl : s.KeepsLedger S p name) :
    s'.KeepsLedger S p name := by
  rcases h.quiet_or (p := p) honest with quiet | ⟨resource, reason, rfl⟩ | ⟨-, place, rfl⟩
  · exact hl.of_quiet quiet
  · exact hl.onFailed steady fits hp resource reason
  · exact hl.confirm distinct fits hp place

theorem Change.isPatient (h : Change S admits who s s') (patient : s.IsPatient) :
    s'.IsPatient := by
  have same : ∀ {t : State}, t.confirmations = s.confirmations → t.IsPatient :=
    fun e i c w hc ↦ patient i c w (e ▸ hc)
  cases h with
  | await place =>
    intro i c w hc waits
    rw [State.getElem?_startConfirmation] at hc
    split at hc
    · cases hc
      cases waits
    · exact patient i c w hc waits
  | @linger j s before d hd look hb =>
    intro i c w hc waits
    rw [State.getElem?_setConfirmation] at hc
    split at hc
    · rename_i here
      subst here
      rw [hd] at hc
      cases hc
      cases waits
      refine State.entries_of_linger ?_ look
      rcases hb with waited | rfl
      · exact patient j d before hd waited
      · rfl
    · exact patient i c w hc waits
  | @leave j s =>
    intro i c w hc waits
    rw [State.getElem?_setConfirmation] at hc
    split at hc
    · obtain ⟨d, -, rfl⟩ := Option.map_eq_some_iff.1 hc
      cases waits
    · exact patient i c w hc waits
  | request c => exact same (by rw [State.request_frame])
  | mark hm own => exact same (by rw [State.mark_frame hm])
  | begin hc fresh hm => exact same (by rw [State.mark_frame hm]; rfl)
  | heed resource reason => exact same (by rw [State.onFailed_frame])
  | release hr waits due => exact same (by rw [State.release_frame])
  | respawn hr gone => exact same (by rw [State.respawn_frame])
  | confirm hc hr hb => exact same (by rw [State.confirm_frame])
  | _ => exact same rfl

/-- Whoever is no confirmation tells of no recovery. -/
theorem Changes.isMute (hw : ∀ i, who ≠ some (.confirmation i))
    (honest : ∀ e, admits (.publish e) → e.resource = some name → e.kind.isRestart = false)
    (h : Changes S admits who s s') : State.IsMute name s s' := by
  induction h with
  | refl => exact .of_events rfl
  | tail _ last ih =>
    refine ih.trans ?_
    rcases last.quiet_or (p := 0) honest with quiet | ⟨resource, reason, rfl⟩ | ⟨⟨i, hi⟩, -⟩
    · exact quiet.isMute
    · exact State.isMute_onFailed resource reason _
    · exact absurd hi (hw i)

/-- A step tells of a recovery only while the resource runs and is ready. -/
theorem Step.isMute (distinct : S.names.Nodup) (hp : S.place? name = some p)
    (honest : ∀ e, admits (.publish e) → e.resource = some name → e.kind.isRestart = false)
    (h : Step S admits s s') (orderly : s.IsOrderly) (fits : s.Fits S) (patient : s.IsPatient) :
    State.IsMute name s s' ∨
      s.ensemble.status? p = some .running ∧ s.ensemble.isReady p = true := by
  rcases h.turn_or_changes orderly (fun t ↦ ∃ i, t = .confirmation i) with
    ⟨_, ⟨i, rfl⟩, rfl⟩ | ⟨who, other, hc⟩
  · show State.IsMute name s (s.stepConfirmation S i) ∨ _
    unfold State.stepConfirmation
    split
    · exact .inl (.of_events rfl)
    · rename_i c hc
      split
      · exact State.isMute_confirmIn distinct fits hp rfl
      · rename_i w waits
        exact State.isMute_confirmIn distinct fits hp (patient i c w hc waits)
      · exact .inl (.of_events rfl)
  · exact .inl (Changes.isMute (fun i ↦ other _ ⟨i, rfl⟩) honest hc)

/-- **The budget of restarts.** With delays that are not spread, and as long as nobody else speaks
of the restarts of a resource, what is published of them is a ledger, at every moment of every run:
its count is the one in the account, and stays within the limit; every entry says what the entries
before it allow; and no more of them answer to failures than there were. A step tells of a recovery
only while the resource runs and is ready. -/
theorem restarts_keep_budget {bus : Bus} {recorder : Option Recorder} {now : Nat} {post : Post}
    (steady : S.settings.backoff.jitter = .none) (distinct : S.names.Nodup)
    (hp : S.posts[p]? = some post)
    (honest : ∀ e, admits (.publish e) → e.resource = some post.name → e.kind.isRestart = false)
    (run : Reaches S admits (State.initial S bus recorder now) s) :
    S.IsLedger post.name s.events (s.account p).attempts (s.failures p) ∧
      ∀ s', Step S admits s s' → ∃ more, s'.events = s.events ++ more ∧
        ∀ e ∈ more, e.resource = some post.name → e.kind = .restartRecovered →
          s.ensemble.status? p = some .running ∧ s.ensemble.isReady p = true := by
  have place := Setup.place?_name distinct hp
  obtain ⟨orderly, sound, ledger, patient⟩ := run.keeps_changes
    (P := fun s ↦ s.IsSound S ∧ s.KeepsLedger S p post.name ∧ s.IsPatient)
    (fun _ hP change ↦ ⟨change.isSound hP.1,
      change.keepsLedger steady distinct place honest hP.1.fits hP.2.1, change.isPatient hP.2.2⟩)
    (State.isOrderly_initial S bus recorder now)
    ⟨State.isSound_initial S bus recorder now, State.keepsLedger_initial S bus recorder now p _,
      by nofun⟩
  refine ⟨ledger.mono (sound.balanced.handled p), fun s' step ↦ ?_⟩
  rcases step.isMute distinct place honest orderly sound.fits patient with
    ⟨more, events, mute⟩ | ready
  · exact ⟨more, events, fun e he about recovered ↦ absurd recovered (mute e he about)⟩
  · obtain ⟨more, events⟩ := step.grows.events
    exact ⟨more, events, fun _ _ _ _ ↦ ready⟩

end Run

/-! ### A resource that recovers -/

/-- Its resource fails once, and is ready when it is started again. -/
def Setup.mending : Setup := .single fun
  | 0 => { serve := [.mark (.failed (.plain "resource_failed" "lost"))] }
  | _ => { start := [.mark .ready], serve := [.untilCancelled] }

/-- The mending resource was started again, and a confirmation has not seen it ready yet. -/
def State.mendingRestarted : State :=
  ((asked .mending).stepHost .mending).play .mending
    (Cue.failure ++ [.turn (.restart 0)] ++ .replicate 2 (.turn (.cycle 0)) ++
      [.turn (.restart 0)] ++ .replicate 4 (.turn (.cycle 1)))

theorem State.reaches_mendingRestarted :
    Reaches .mending (· = .call) (.atRest .mending) State.mendingRestarted :=
  State.reaches_play (.step (State.reaches_asked .mending rfl) (.turn .host rfl))
    (by decide +kernel) fun d hd ↦ absurd hd (by simp [Cue.failure])

/-- One failure, one restart, and a recovery that is told of while the resource runs and is
ready. -/
theorem mending_keeps_budget :
    Setup.mending.IsLedger "a" State.mendingRestarted.events 1 1 ∧
      State.mendingRestarted.ensemble.status? 0 = some .running ∧
      State.mendingRestarted.ensemble.isReady 0 = true := by
  have honest : ∀ e, Deed.publish e = .call → e.resource = some "a" → e.kind.isRestart = false := by
    intro e he
    cases he
  have here : Setup.mending.posts[0]? = some _ := rfl
  obtain ⟨ledger, later⟩ := restarts_keep_budget rfl (by decide) here honest
    State.reaches_mendingRestarted
  have restarts : (State.mendingRestarted.account 0).attempts = 1 := by decide +kernel
  have failures : State.mendingRestarted.failures 0 = 1 := by decide +kernel
  rw [restarts, failures] at ledger
  obtain ⟨more, events, ready⟩ := later _ (.turn (.confirmation 0) (by decide +kernel))
  have recovers : (State.mendingRestarted.step .mending (.confirmation 0)).events
      = State.mendingRestarted.events ++ [.recovered "a" 1] := by decide +kernel
  cases List.append_cancel_left (events.symm.trans recovers)
  exact ⟨ledger, ready _ List.mem_cons_self rfl rfl⟩

/-! ### Entries that are not the supervisor's, or not made yet -/

/-- In the middle of a step that counts, what was published is no ledger of the count. -/
theorem HeldUp.not_isLedger {S : Setup} {s t : State} {k : Task} {rest : State → State}
    {p n : Nat} {name : String} (h : HeldUp S s k t rest)
    (count : (s.account p).attempts = restartsSince name s.events)
    (counts : (t.account p).attempts ≠ (s.account p).attempts) :
    ¬ S.IsLedger name t.events (t.account p).attempts n := by
  intro ledger
  refine counts ?_
  rw [ledger.count, count, h.events_eq]

/-- The mending resource has failed, and the watcher has taken all that was said before that off
the bus. -/
def State.mendingFailed : State :=
  ((asked .mending).stepHost .mending).play .mending
    (.replicate 4 (.turn (.cycle 0)) ++ .replicate 3 (.turn (.watcher 0)))

theorem State.reaches_mendingFailed :
    Reaches .mending (· = .call) (.atRest .mending) State.mendingFailed :=
  State.reaches_play (.step (State.reaches_asked .mending rfl) (.turn .host rfl))
    (by decide +kernel) (by simp)

/-- The watcher may be held up when it has counted the restart. -/
theorem State.exists_heldUp_mendingFailed : ∃ t, HeldUp .mending State.mendingFailed (.watcher 0) t
      (·.announce "a" "lost" 0 (.restart 1 (.ofSecs 0))) ∧
    (t.account 0).attempts = 1 ∧ t.isRequested = false := by
  have decides : ((State.mendingFailed.setWatcher 0 ⟨4, false⟩).judge .mending 0).toOption.map
      (fun x ↦ (x.1, (x.2.account 0).attempts, x.2.isRequested))
        = some (.restart 1 (.ofSecs 0), 1, false) := by decide +kernel
  cases judged : (State.mendingFailed.setWatcher 0 ⟨4, false⟩).judge .mending 0 with
  | error e =>
    rw [judged] at decides
    cases decides
  | ok x =>
    obtain ⟨d, t⟩ := x
    rw [judged] at decides
    obtain ⟨rfl, decides⟩ := Prod.mk.inj (Option.some.inj decides)
    obtain ⟨counted, unasked⟩ := Prod.mk.inj decides
    have news : State.mendingFailed.ensemble.bus.receive 3 = .event (.transition
        ⟨"a", .running, .failed, some (.plain "resource_failed" "lost")⟩) 4 := by decide +kernel
    exact ⟨t, .watcher (by decide +kernel) (by decide +kernel) news rfl (by decide +kernel) judged,
      counted, unasked⟩

/-- News of a restart of the mending resource. -/
def Event.rumour : Event := .scheduled "a" 1 (.ofSecs 0) "lost"

/-- **What is published of the restarts of a resource may be no ledger of its account**: when
somebody outside publishes such news, when a watcher is held up that has counted a restart, and when
a confirmation is held up that has taken the count. -/
theorem ledger_can_be_off : Setup.mending.settings.backoff.jitter = .none ∧
    (∃ s, Reaches .mending (· = .publish .rumour) (.atRest .mending) s ∧
      ¬ Setup.mending.IsLedger "a" s.events (s.account 0).attempts (s.failures 0)) ∧
    (∃ s t rest, Reaches .mending (· = .call) (.atRest .mending) s ∧
      HeldUp .mending s (.watcher 0) t rest ∧
      ¬ Setup.mending.IsLedger "a" t.events (t.account 0).attempts (t.failures 0)) ∧
    ∃ s t rest, Reaches .mending (· = .call) (.atRest .mending) s ∧
      HeldUp .mending s (.confirmation 0) t rest ∧
      ¬ Setup.mending.IsLedger "a" t.events (t.account 0).attempts (t.failures 0) := by
  refine ⟨rfl, ⟨_, .step (.refl _) (.deed (.publish .rumour) rfl), fun ledger ↦ ?_⟩, ?_, ?_⟩
  -- The rumour counts on the bus, but not in the account.
  · exact absurd ledger.count (by decide +kernel)
  · obtain ⟨t, held, counted, -⟩ := State.exists_heldUp_mendingFailed
    refine ⟨_, t, _, State.reaches_mendingFailed, held,
      held.not_isLedger (by decide +kernel) ?_⟩
    rw [counted]
    decide +kernel
  -- The count of one restart is taken, and no recovery was told of yet.
  · have here : State.mendingRestarted.confirmations[0]? = some ⟨0, .fresh⟩ := by decide +kernel
    have held := HeldUp.confirmation (S := .mending) here (.inr ⟨rfl, rfl⟩) (by decide +kernel)
      (by decide +kernel)
    exact ⟨_, _, _, State.reaches_mendingRestarted, held,
      held.not_isLedger (by decide +kernel) (by decide +kernel)⟩

end Supervision
