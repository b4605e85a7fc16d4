import Supervision.Proofs.Supervisor.Balance
import Supervision.Proofs.Supervisor.Schedule

/-!
# No failure is forgotten

A watcher at a position of the bus still has to learn of a failure, or it was acted on: a failed
resource that nobody has acted on stands in the events from that position on, and so does a crashed
one, until the shutdown begins (`State.IsTold`). A watcher that receives the news acts on it; one
that is told that it missed events looks at every resource, and so acts on whatever it missed. What
else happens in the meantime takes no news off the bus.

* `State.isAttended_stepWatcher` — a step of the watcher keeps this, as does everything else
  (`Change.isAttended`).
* `no_failure_forgotten` — a watcher with nothing left to receive has acted on every failure.
-/

namespace Supervision

/-- The event tells that a resource has moved to a status. -/
def Event.Tells (name : String) (target : Status) (e : Event) : Prop :=
  e.kind = .transition ∧ ∃ m, e.move = some m ∧ m.resource = name ∧ m.target = target

/-- Every restart that a resource may have has a delay. -/
def Setup.HasDelays (S : Setup) : Prop :=
  ∀ k n, n < S.settings.maxRestarts → ∃ d, S.settings.backoff.delay (S.dice k) n = .ok d

namespace State

/-- From a position of the bus on there is news that a resource has moved to a status. -/
def HasNews (next : Nat) (name : String) (target : Status) (s : State) : Prop :=
  ∃ (k : Nat) (e : Event), next ≤ k ∧ s.ensemble.bus.sent[k]? = some e ∧ e.Tells name target

/-- Of a failure of the resource in a place that nobody has acted on there is news. -/
def IsToldOfFailure (next p : Nat) (s : State) : Prop :=
  ∀ c, s.lifecycle? p = some c → c.status = .failed → (s.account p).handled < s.failures p →
    s.isRequested = true ∨ s.HasNews next c.name .failed

/-- Of a crash of the resource in a place there is news. -/
def IsToldOfCrash (next p : Nat) (s : State) : Prop :=
  ∀ c, s.lifecycle? p = some c → c.status = .crashed →
    s.isRequested = true ∨ s.HasNews next c.name .crashed

/-- Whoever reads the bus from a position on learns what is left to do about the resource in a
place. -/
structure IsTold (next p : Nat) (s : State) : Prop where
  failure : s.IsToldOfFailure next p
  crash : s.IsToldOfCrash next p

/-- Watcher `i` has not ended before the shutdown begins, and learns what is left to do. -/
def IsAttended (i : Nat) (s : State) : Prop :=
  ∃ w : Watcher, s.watchers[i]? = some w ∧ (w.isOver = true → s.isRequested = true) ∧
    w.next ≤ s.ensemble.bus.size ∧ ∀ p, s.IsTold w.next p

/-! ### News stays on the bus -/

section News

variable {s t : State} {next : Nat} {name : String} {target : Status}

theorem HasNews.grows (h : s.HasNews next name target)
    (g : Grows s t) : t.HasNews next name target := by
  obtain ⟨k, e, hk, he, tells⟩ := h
  obtain ⟨more, sent⟩ := g.bus
  obtain ⟨hlt, -⟩ := Array.getElem?_eq_some_iff.1 he
  exact ⟨k, e, hk, by rw [sent, Array.getElem?_append_left hlt, he], tells⟩

/-- News stands in the next event or further on. -/
theorem HasNews.skip {e : Event} (h : s.HasNews next name target)
    (he : s.ensemble.bus.sent[next]? = some e) :
    e.Tells name target ∨ s.HasNews (next + 1) name target := by
  obtain ⟨k, e', hk, he', tells⟩ := h
  rcases Nat.eq_or_lt_of_le hk with rfl | hlt
  · rw [he] at he'
    cases he'
    exact .inl tells
  · exact .inr ⟨k, e', hlt, he', tells⟩

end News

end State

namespace Change

variable {S : Setup} {admits : Deed → Prop} {who : Option Task} {s s' : State} {next p : Nat}

theorem size_bus_le (h : Change S admits who s s') :
    s.ensemble.bus.size ≤ s'.ensemble.bus.size := by
  obtain ⟨more, sent⟩ := h.grows.bus
  unfold Bus.size
  rw [sent, Array.size_append]
  exact Nat.le_add_right _ _

theorem isTold (h : Change S admits who s s') (hs : s.IsSound S)
    (hn : next ≤ s.ensemble.bus.size) (ht : s.IsTold next p) : s'.IsTold next p := by
  have fresh : ∀ {c c' : Lifecycle} {target : Status} {failure : Option Failure} {k : Nat},
      c'.name = c.name → s.ensemble.bus.size ≤ k →
      s'.ensemble.bus.sent[k]? = some (.transition ⟨c.name, c.status, target, failure⟩) →
      s'.HasNews next c'.name target := by
    intro c c' target failure k name hk sent
    exact ⟨k, _, Nat.le_trans hn hk, sent, rfl, _, rfl, name.symm, rfl⟩
  -- A status that is new was published at the end of the bus, which is past `next`.
  refine ⟨fun c' hc' failed new ↦ ?_, fun c' hc' crashed ↦ ?_⟩
  · obtain ⟨c, hc, name, ⟨status, failures⟩ | ⟨target, _, -, status, -, k, hk, sent⟩⟩ :=
      h.lifecycle hc'
    · have count : s'.failures p = s.failures p := by
        rw [State.failures_eq hc', State.failures_eq hc, failures]
      have unhandled : (s.account p).handled < s.failures p := by
        rw [count] at new
        cases h.account hs.fits p with
        | same e => rwa [e] at new
        | release hr waits _ e => rwa [e] at new
        | recover running e => rwa [e] at new
        | notice here known why e => exact known
        | schedule here known idle left entered e => exact known
      rw [name]
      exact (ht.failure c hc (status ▸ failed) unhandled).imp h.isRequested (·.grows h.grows)
    · rw [← failed, status]
      exact .inr (fresh name hk sent)
  · obtain ⟨c, hc, name, ⟨status, -⟩ | ⟨target, _, -, status, -, k, hk, sent⟩⟩ := h.lifecycle hc'
    · rw [name]
      exact (ht.crash c hc (status ▸ crashed)).imp h.isRequested (·.grows h.grows)
    · rw [← crashed, status]
      exact .inr (fresh name hk sent)

/-- A watcher goes on to be attended to while others act. -/
theorem isAttended {i : Nat} (h : Change S admits who s s') (hs : s.IsSound S)
    (stays : s'.watchers[i]? = s.watchers[i]?) (ha : s.IsAttended i) : s'.IsAttended i := by
  obtain ⟨w, hw, gone, hn, told⟩ := ha
  exact ⟨w, stays.trans hw, fun ho ↦ h.isRequested (gone ho), Nat.le_trans hn h.size_bus_le,
    fun p ↦ h.isTold hs hn (told p)⟩

end Change

/-! ### What a watcher does about what it receives -/

namespace State

variable {S : Setup} {i next p : Nat} {s t : State}

/-- What a watcher does without moving on. -/
def Reacts (S : Setup) (i : Nat) : State → State → Prop :=
  Relation.ReflTransGen fun s t ↦
    Change S (fun _ ↦ False) (some (.watcher i)) s t ∧ t.watchers = s.watchers

namespace Reacts

theorem single (h : Change S (fun _ ↦ False) (some (.watcher i)) s t)
    (stays : t.watchers = s.watchers) : Reacts S i s t :=
  Relation.ReflTransGen.single ⟨h, stays⟩

/-- A watcher that reacts stays where it is, and what is to be learned still is. -/
theorem keeps (h : Reacts S i s t) (hs : s.IsSound S) :
    t.IsSound S ∧ t.watchers = s.watchers ∧ s.ensemble.bus.size ≤ t.ensemble.bus.size ∧
      ∀ next p, next ≤ s.ensemble.bus.size → s.IsTold next p → t.IsTold next p := by
  induction h with
  | refl => exact ⟨hs, rfl, Nat.le_refl _, fun _ _ _ told ↦ told⟩
  | tail _ last ih =>
    obtain ⟨sound, stays, size, told⟩ := ih
    obtain ⟨change, same⟩ := last
    exact ⟨change.isSound sound, same.trans stays, Nat.le_trans size change.size_bus_le,
      fun next p hn ht ↦ change.isTold sound (Nat.le_trans hn size) (told next p hn ht)⟩

theorem onFailed (resource reason : String) (s : State) :
    Reacts S i s (s.onFailed S resource reason).state :=
  single (.heed _ _) (by rw [onFailed_frame])

theorem escalate (resource reason : String) (s : State) :
    Reacts S i s (s.escalate resource reason) := by
  unfold State.escalate
  split
  · exact .refl
  · exact single (.request _) (by rw [request_frame])

theorem onRunning (resource : String) (s : State) : Reacts S i s (s.onRunning S resource) := by
  unfold State.onRunning
  split
  · exact .refl
  · exact single (.await _) rfl

theorem onEvent (e : Event) (s : State) : Reacts S i s (s.onEvent S e).state := by
  unfold State.onEvent
  split
  · split
    · exact .refl
    · dsimp only
      split
      · exact onFailed _ _ _
      · exact onRunning _ _
      · exact escalate _ _ _
      · exact .refl
  · exact .refl

theorem rescanOne (p : Nat) (s : State) : Reacts S i s (s.rescanOne S p).state := by
  unfold State.rescanOne
  split
  · exact .refl
  · dsimp only
    split
    · exact onFailed _ _ _
    · exact escalate _ _ _
    · dsimp only
      split
      · exact onRunning _ _
      · exact .refl
    · exact .refl

end Reacts

theorem isRequested_escalate (resource reason : String) (s : State) :
    (s.escalate resource reason).isRequested = true := by
  unfold escalate
  split
  · assumption
  · exact isRequested_request _ _

theorem lifecycle?_onFailed (resource reason : String) (s : State) (p : Nat) :
    (s.onFailed S resource reason).state.lifecycle? p = s.lifecycle? p := by
  have h := heed_onFailed S resource reason s
  generalize s.onFailed S resource reason = r at h ⊢
  cases h with
  | exhausted hp here new spent =>
    dsimp only
    rw [request_eq, publishAll_eq]
    rfl
  | _ => rfl

/-- Where every delay has a value, a watcher does not break. -/
theorem broke_onFailed (delays : S.HasDelays) (resource reason : String) (s : State) :
    (s.onFailed S resource reason).broke = none := by
  have h := heed_onFailed S resource reason s
  generalize s.onFailed S resource reason = r at h ⊢
  cases h with
  | broken hq here hd left =>
    obtain ⟨d, hd'⟩ := delays s.rolls _ left
    rw [hd'] at hd
    cases hd
  | _ => rfl

/-- A failure is acted on, unless the shutdown has begun or the watcher breaks. -/
theorem acts_onFailed (fits : s.Fits S) {resource reason : String}
    (whole : (s.onFailed S resource reason).broke = none) (hp : S.place? resource = some p) :
    (s.onFailed S resource reason).state.isRequested = true ∨
      (s.onFailed S resource reason).state.failures p
        ≤ ((s.onFailed S resource reason).state.account p).handled := by
  have hlt : p < s.members.size := fits.size ▸ Setup.lt_of_place? hp
  have failures : (s.onFailed S resource reason).state.failures p = s.failures p := by
    unfold State.failures
    rw [lifecycle?_onFailed]
  rw [failures]
  have h := heed_onFailed S resource reason s
  generalize s.onFailed S resource reason = r at h whole ⊢
  cases h with
  | ignored h =>
    rcases h with h | h
    · exact .inl h
    · rw [hp] at h
      cases h
  | broken hq here hd left => cases whole
  | old hq here known =>
    rw [hp] at hq
    cases hq
    exact .inr (by rw [account_setAccount_self _ hlt]; exact known)
  | pending hq here new busy =>
    rw [hp] at hq
    cases hq
    exact .inr (Nat.le_of_eq (by rw [account_setAccount_self _ hlt]))
  | exhausted hq here new spent => exact .inl (isRequested_request _ _)
  | restart hq here new idle left hd =>
    rw [hp] at hq
    cases hq
    have self := account_setAccount_self (s := s)
      ⟨(s.account p).attempts + 1, true, s.failures p⟩ hlt
    exact .inr (Nat.le_of_eq (congrArg Account.handled self).symm)

/-- Nothing is left to do about a resource that has neither failed nor crashed. -/
theorem isTold_of_status
    (h : ∀ c, s.lifecycle? p = some c → c.status ≠ .failed ∧ c.status ≠ .crashed) :
    s.IsTold next p :=
  ⟨fun c hc failed _ ↦ absurd failed (h c hc).1, fun c hc crashed ↦ absurd crashed (h c hc).2⟩

theorem isTold_of_isRequested (h : s.isRequested = true) : s.IsTold next p :=
  ⟨fun _ _ _ _ ↦ .inl h, fun _ _ _ ↦ .inl h⟩

/-- A watcher that looks at a resource does whatever is left to do about it. -/
theorem isTold_rescanOne (delays : S.HasDelays) (distinct : S.names.Nodup) (fits : s.Fits S)
    (next p : Nat) :
    (s.rescanOne S p).broke = none ∧ (s.rescanOne S p).state.IsTold next p := by
  have other : ∀ {t : State}, t.ensemble.members = s.ensemble.members →
      (∀ c, s.lifecycle? p = some c → c.status ≠ .failed ∧ c.status ≠ .crashed) →
      t.IsTold next p := by
    intro t same h
    refine isTold_of_status fun c hc ↦ h c ?_
    rw [← hc, lifecycle?, lifecycle?, same]
  unfold rescanOne
  cases hc : s.lifecycle? p with
  | none => exact ⟨rfl, other rfl (by simp [hc])⟩
  | some c =>
    dsimp only
    cases status : c.status with
    | failed =>
      refine ⟨broke_onFailed delays _ _ _, fun c' hc' _ new ↦ ?_, fun c' hc' crashed ↦ ?_⟩
      · rcases acts_onFailed fits (broke_onFailed delays _ _ _)
          (fits.place?_name distinct hc) with requested | acted
        · exact .inl requested
        · exact absurd new (Nat.not_lt_of_le acted)
      · rw [lifecycle?_onFailed, hc] at hc'
        cases hc'
        rw [status] at crashed
        cases crashed
    | crashed => exact ⟨rfl, isTold_of_isRequested (isRequested_escalate _ _ _)⟩
    | running =>
      refine ⟨rfl, other ?_ (by simp [hc, status])⟩
      dsimp only
      unfold onRunning
      split
      · split <;> rfl
      · rfl
    | _ => exact ⟨rfl, other rfl (by simp [hc, status])⟩

/-- A watcher that looks at resources one after the other does whatever is left to do about
them. -/
theorem isTold_rescanFrom (delays : S.HasDelays) (distinct : S.names.Nodup) (sound : s.IsSound S)
    (hn : next ≤ s.ensemble.bus.size) (places : List Nat) :
    (s.rescanFrom S places).broke = none ∧ Reacts S i s (s.rescanFrom S places).state ∧
      ∀ p ∈ places, (s.rescanFrom S places).state.IsTold next p := by
  -- What is true after the first place stays so, since a watcher that reacts keeps it (`keeps`).
  induction places generalizing s with
  | nil => exact ⟨rfl, .refl, nofun⟩
  | cons place rest ih =>
    obtain ⟨whole, told⟩ := isTold_rescanOne delays distinct sound.fits next place
    have reacts := Reacts.rescanOne (S := S) (i := i) place s
    unfold rescanFrom
    generalize s.rescanOne S place = r at whole told reacts
    obtain ⟨t, broke⟩ := r
    cases whole
    obtain ⟨sound', -, size, -⟩ := reacts.keeps sound
    obtain ⟨whole, further, all⟩ := ih sound' (Nat.le_trans hn size)
    obtain ⟨-, -, -, keeps⟩ := further.keeps sound'
    refine ⟨whole, reacts.trans further, ?_⟩
    intro p hp
    rcases List.mem_cons.1 hp with rfl | hp
    · exact keeps next p (Nat.le_trans hn size) told
    · exact all p hp

theorem broke_onEvent (delays : S.HasDelays) (e : Event) (s : State) :
    (s.onEvent S e).broke = none := by
  unfold onEvent
  split
  · split
    · rfl
    · dsimp only
      split
      · exact broke_onFailed delays _ _ _
      · rfl
      · rfl
      · rfl
  · rfl

/-- A watcher that receives news acts on it: whatever else is left to do stands further on. -/
theorem isTold_onEvent (delays : S.HasDelays) (distinct : S.names.Nodup) (sound : s.IsSound S)
    {e : Event} (he : s.ensemble.bus.sent[next]? = some e) (told : s.IsTold next p) :
    (s.onEvent S e).state.IsTold (next + 1) p := by
  obtain ⟨hlt, -⟩ := Array.getElem?_eq_some_iff.1 he
  have keeps := (Reacts.onEvent (S := S) (i := 0) e s).keeps sound
  -- Either the event is the news about this resource, or the news stands further on.
  by_cases news : ∃ c target, s.lifecycle? p = some c ∧ e.Tells c.name target ∧
      (target = .failed ∨ target = .crashed)
  · obtain ⟨c, _, hc, ⟨kind, m, hm, resource, rfl⟩, target | target⟩ := news
    · have acts : s.onEvent S e
          = s.onFailed S c.name ((m.failure.map (·.message)).getD "failed") := by
        unfold onEvent
        rw [if_pos kind, hm]
        dsimp only
        rw [target, resource]
      have grows := grows_onEvent S e s
      rw [acts] at grows ⊢
      refine ⟨fun c' hc' _ new ↦ ?_, fun c' hc' crashed ↦ ?_⟩
      · rcases acts_onFailed sound.fits (broke_onFailed delays _ _ _)
          (sound.fits.place?_name distinct hc) with requested | acted
        · exact .inl requested
        · exact absurd new (Nat.not_lt_of_le acted)
      · rw [lifecycle?_onFailed] at hc'
        rcases told.crash c' hc' crashed with requested | news
        · exact .inl (isRequested_onFailed requested)
        · rcases news.skip he with ⟨-, m', hm', -, other⟩ | further
          · rw [hm] at hm'
            cases hm'
            rw [target] at other
            cases other
          · exact .inr (further.grows grows)
    · have acts : (s.onEvent S e).state
          = s.escalate m.resource ((m.failure.map (·.message)).getD "crashed") := by
        unfold onEvent
        rw [if_pos kind, hm]
        dsimp only
        rw [target]
      rw [acts]
      exact isTold_of_isRequested (isRequested_escalate _ _ _)
  · refine keeps.2.2.2 (next + 1) p hlt ⟨fun c hc failed new ↦ ?_, fun c hc crashed ↦ ?_⟩
    · refine (told.failure c hc failed new).imp_right fun h ↦ (h.skip he).resolve_left ?_
      exact fun tells ↦ news ⟨c, _, hc, tells, .inl rfl⟩
    · refine (told.crash c hc crashed).imp_right fun h ↦ (h.skip he).resolve_left ?_
      exact fun tells ↦ news ⟨c, _, hc, tells, .inr rfl⟩

/-- **A step of a watcher leaves nothing behind that it would have to learn.** -/
theorem isAttended_stepWatcher (delays : S.HasDelays) (distinct : S.names.Nodup)
    (sound : s.IsSound S) (ha : s.IsAttended i) : (s.stepWatcher S i).IsAttended i := by
  obtain ⟨w, hw, gone, hn, told⟩ := ha
  have hi : i < s.watchers.size := (Array.getElem?_eq_some_iff.1 hw).1
  have moved : ∀ v, (s.setWatcher i v).watchers[i]? = some v := fun v ↦ by
    unfold setWatcher
    dsimp only
    rw [Array.getElem?_setIfInBounds_self_of_lt hi]
  have turned : ∀ v, (s.setWatcher i v).IsSound S := fun v ↦
    (Change.turn v : Change S (fun _ ↦ False) (some (.watcher i)) s _).isSound sound
  -- Whatever the watcher does about it, it stands where it went on and has learned the rest.
  have goesOn : ∀ {next : Nat} {r : Watched}, next ≤ s.ensemble.bus.size →
      Reacts S i (s.setWatcher i { w with next := next }) r.state → r.broke = none →
      w.isOver = false → (∀ p, r.state.IsTold next p) →
      (watcherAfter i { w with next := next } r).IsAttended i := by
    intro next r hn' reacts whole here all
    obtain ⟨-, stays, size, -⟩ := reacts.keeps (turned _)
    unfold watcherAfter
    rw [whole]
    refine ⟨{ w with next := next }, by rw [stays, moved], fun h ↦ ?_, Nat.le_trans hn' size, all⟩
    rw [here] at h
    cases h
  unfold stepWatcher
  rw [hw]
  dsimp only
  split
  · exact ⟨w, hw, gone, hn, told⟩
  · rename_i here
    split
    · rename_i requested
      refine ⟨{ w with isOver := true }, moved _, fun _ ↦ requested, hn, fun p ↦ ?_⟩
      exact isTold_of_isRequested requested
    · cases received : s.ensemble.bus.receive w.next with
      | nothing => exact ⟨w, hw, gone, hn, told⟩
      | event e next =>
        obtain ⟨he, rfl⟩ := Bus.receive_eq_event received
        have hlt := (Array.getElem?_eq_some_iff.1 he).1
        refine goesOn hlt (.onEvent e _) (broke_onEvent delays e _) (Bool.eq_false_iff.2 here) ?_
        exact fun p ↦
          isTold_onEvent delays distinct (turned _) he ⟨(told p).failure, (told p).crash⟩
      | missed count next =>
        have hn' : next ≤ s.ensemble.bus.size := by
          have goes : (s.ensemble.bus.receive w.next).next? = some next := by rw [received]; rfl
          exact (Bus.receive_next goes).2
        obtain ⟨whole, reacts, all⟩ := isTold_rescanFrom (i := i) delays distinct
          (turned { w with next := next }) hn' (List.range S.posts.size)
        refine goesOn hn' reacts whole (Bool.eq_false_iff.2 here) fun p ↦ ?_
        by_cases hp : p < S.posts.size
        · exact all p (List.mem_range.2 hp)
        -- There is nobody in a place that the watcher did not look at.
        · refine isTold_of_status fun c hc ↦ absurd ?_ hp
          obtain ⟨post, hpost, -⟩ := (reacts.keeps (turned _)).1.fits.exists_post hc
          exact (Array.getElem?_eq_some_iff.1 hpost).1

end State

/-! ### From the beginning of a run on -/

namespace State

variable {S : Setup} {s : State}

theorem ensemble_startCycles (places : List Nat) (s : State) :
    (places.foldl (fun s place ↦ s.startCycle place) s).ensemble = s.ensemble ∧
      (places.foldl (fun s place ↦ s.startCycle place) s).watchers = s.watchers := by
  induction places generalizing s with
  | nil => exact ⟨rfl, rfl⟩
  | cons place rest ih => exact ih (s.startCycle place)

/-- A run begins with a watcher that stands at the end of the bus. -/
theorem beginRun_eq (S : Setup) (s : State) :
    (s.beginRun S).ensemble = s.ensemble ∧
      (s.beginRun S).watchers = s.watchers.push { next := s.ensemble.bus.size } := by
  unfold beginRun
  dsimp only
  refine ⟨(ensemble_startCycles _ _).1.trans ?_, (ensemble_startCycles _ _).2.trans ?_⟩
  · split <;> rfl
  · split <;> rfl

/-- Where no resource was started yet, nothing is left to learn at the beginning of a run. -/
theorem isAttended_beginRun (S : Setup) (s : State)
    (idle : ∀ p c, s.lifecycle? p = some c → c.status = .notStarted) :
    (s.beginRun S).IsAttended s.watchers.size := by
  obtain ⟨ensemble, watchers⟩ := beginRun_eq S s
  refine ⟨{ next := s.ensemble.bus.size }, by rw [watchers, Array.getElem?_push_size],
    fun gone ↦ absurd gone Bool.false_ne_true,
    Nat.le_of_eq (by rw [ensemble]), fun p ↦ isTold_of_status fun c hc ↦ ?_⟩
  have status : c.status = .notStarted := by
    refine idle p c ?_
    rw [← hc, lifecycle?, lifecycle?, ensemble]
  rw [status]
  exact ⟨by simp, by simp⟩

end State

section Run

variable {S : Setup} {admits : Deed → Prop} {i : Nat} {s s' : State}

/-- Every step keeps a watcher attended to. -/
theorem Step.isAttended (delays : S.HasDelays) (distinct : S.names.Nodup)
    (h : Step S admits s s') (sound : s.IsSound S) (ha : s.IsAttended i) :
    s'.IsSound S ∧ s'.IsAttended i := by
  refine ⟨h.isSound sound, ?_⟩
  rcases h.turn_or_changes sound.orderly (· = .watcher i) with ⟨_, rfl, rfl⟩ | ⟨who, other, hc⟩
  · exact State.isAttended_stepWatcher delays distinct sound ha
  · refine (hc.keeps (P := fun s ↦ s.IsSound S ∧ s.IsAttended i) (fun _ hP change ↦ ?_)
      sound.orderly ⟨sound, ha⟩).2.2
    obtain ⟨w, hw, -⟩ := hP.2
    have stays := change.watcher_stays (other _ rfl) (Array.getElem?_eq_some_iff.1 hw).1
    exact ⟨change.isSound hP.1, change.isAttended hP.1 stays hP.2⟩

/-- **No failure is forgotten.** Of a run that begins while no resource was started yet, look at any
moment before the shutdown. The watcher is there; and when it has nothing left to receive, neither
an event nor the notice that it missed some, then no resource is crashed, and each one that has
failed has a restart on the calendar, or one that waits for the cycle before, or a cycle that is
about to begin. -/
theorem no_failure_forgotten {bus : Bus} {recorder : Option Recorder} {now : Nat} {s₀ : State}
    (delays : S.HasDelays) (distinct : S.names.Nodup)
    (before : Reaches S admits (State.initial S bus recorder now) s₀) (asked : s₀.host = .fresh)
    (idle : ∀ p c, s₀.lifecycle? p = some c → c.status = .notStarted)
    (run : Reaches S admits (s₀.stepHost S) s) (here : s.isRequested = false) :
    ∃ w : Watcher, s.watchers[s₀.watchers.size]? = some w ∧ w.isOver = false ∧
      (s.ensemble.bus.receive w.next = .nothing → ∀ p c, s.lifecycle? p = some c →
        c.status ≠ .crashed ∧ (c.status = .failed → s.IsMended p)) := by
  have start : (s₀.stepHost S).IsSound S := by
    have enabled : s₀.isEnabled .host = true := by
      simp [State.isEnabled, State.hostIsEnabled, asked]
    exact (before.step (.turn .host enabled)).isSound
  have attended : (s₀.stepHost S).IsAttended s₀.watchers.size := by
    unfold State.stepHost
    rw [asked]
    exact State.isAttended_beginRun S s₀ idle
  obtain ⟨sound, w, hw, gone, hn, told⟩ := run.keeps
    (P := fun s ↦ s.IsSound S ∧ s.IsAttended s₀.watchers.size)
    (fun hP step ↦ step.isAttended delays distinct hP.1 hP.2) ⟨start, attended⟩
  refine ⟨w, hw, ?_, fun caughtUp p c hc ↦ ?_⟩
  · refine Bool.eq_false_iff.2 fun ended ↦ ?_
    rw [gone ended] at here
    cases here
  · have last := Bus.receive_eq_nothing_iff.1 caughtUp
    have nothing : ∀ {name target}, ¬ s.HasNews w.next name target := by
      rintro name target ⟨k, e, hk, he, -⟩
      have hlt := (Array.getElem?_eq_some_iff.1 he).1
      exact Nat.not_lt_of_le (Nat.le_trans last hk) hlt
    have running : ¬ s.isRequested = true := Bool.eq_false_iff.1 here
    refine ⟨fun crashed ↦ ?_, fun failed ↦ ?_⟩
    · rcases (told p).crash c hc crashed with requested | news
      · exact running requested
      · exact nothing news
    · rcases sound.balanced.failed p c hc failed with requested | mended | new
      · exact absurd requested running
      · exact mended
      · rcases (told p).failure c hc failed new with requested | news
        · exact absurd requested running
        · exact absurd news nothing

end Run

theorem Setup.hasDelays_stubborn : Setup.stubborn.HasDelays := by
  intro k n hn
  have all : ∀ n < 3, (Setup.stubborn.settings.backoff.delay 0 n).isOk = true := by decide +kernel
  cases hd : Setup.stubborn.settings.backoff.delay 0 n with
  | ok d => exact ⟨d, hd⟩
  | error e =>
    have ok := all n hn
    rw [hd] at ok
    cases ok

/-- A resource that has failed and does not end is about to be started again. -/
theorem stubborn_isMended :
    State.stubbornFailed.ensemble.status? 0 = some .failed ∧ State.stubbornFailed.IsMended 0 := by
  have run : Reaches .stubborn (fun _ ↦ True) _ State.stubbornFailed :=
    State.reaches_play (.refl _) (by decide +kernel) fun _ _ ↦ trivial
  have idle : ∀ p c, (State.asked .stubborn).lifecycle? p = some c → c.status = .notStarted := by
    intro p c hc
    match p with
    | 0 => cases hc; rfl
    | p + 1 => cases hc
  obtain ⟨w, hw, -, caughtUp⟩ := no_failure_forgotten Setup.hasDelays_stubborn (by decide)
    (State.reaches_asked .stubborn trivial) rfl idle run (by decide +kernel)
  have position : State.stubbornFailed.watchers[0]? = some { next := 5 } := by decide +kernel
  have status : State.stubbornFailed.ensemble.status? 0 = some .failed := by decide +kernel
  cases hw.symm.trans position
  obtain ⟨c, hc, failed⟩ := Option.map_eq_some_iff.1 status
  exact ⟨status, (caughtUp (by decide +kernel) 0 c hc).2 failed⟩

end Supervision
