import Supervision.Proofs.Supervisor.Escalating
import Supervision.Proofs.Supervisor.Failures

/-!
# What an escalation rests on

A watcher escalates over a resource that has crashed, or that has failed and has no restarts left.
Either stays as it is from then on: a crash is for good, and a failed resource of which no cycle
goes on and no restart is on its way is started by nobody once its failures were acted on
(`State.IsDownForGood`). So whoever looks at it later finds it as the watcher did, with the same
latest failure (`State.IsFounded`).

* `Step.isDownForGood` — who is down for good stays so.
* `State.isFounded_stepWatcher` — a watcher that escalates has grounds to.
* `Step.isFounded` — and they stay.
-/

namespace Supervision

namespace State

/-- The resource in place `p` has failed or crashed and stands as `l`; if it has failed, no cycle of
it goes on and no restart of it is on its way. -/
structure IsDown (p : Nat) (l : Lifecycle) (s : State) : Prop where
  here : s.lifecycle? p = some l
  failing : l.status.isFailure = true
  ended : l.status = .failed → ∀ i, ¬ s.IsGoing p i
  calm : l.status = .failed → ∀ j, ¬ s.IsRestarting p j

/-- It is down, and nobody has a failure of it left to act on. -/
structure IsDownForGood (p : Nat) (l : Lifecycle) (s : State) : Prop extends IsDown p l s where
  known : l.status = .failed → s.failures p ≤ (s.account p).handled

variable {S : Setup} {i p : Nat} {c : Cycle} {l : Lifecycle} {s t : State}

theorem IsDown.crashed_or_failed (h : s.IsDown p l) : l.status = .crashed ∨ l.status = .failed := by
  have failing := h.failing
  cases status : l.status with
  | failed => exact .inr rfl
  | crashed => exact .inl rfl
  | _ => rw [status] at failing; cases failing

/-- It depends on the resource alone, its cycles and its restarts. -/
theorem IsDown.congr (h : s.IsDown p l) (lifecycle : t.lifecycle? p = s.lifecycle? p)
    (cycles : ∀ i, t.IsGoing p i → s.IsGoing p i)
    (restarts : ∀ j, t.IsRestarting p j → s.IsRestarting p j) : t.IsDown p l where
  here := lifecycle.trans h.here
  failing := h.failing
  ended failed i going := h.ended failed i (cycles i going)
  calm failed j waits := h.calm failed j (restarts j waits)

theorem IsDownForGood.congr (h : s.IsDownForGood p l) (ensemble : t.ensemble = s.ensemble)
    (cycles : t.cycles = s.cycles) (restarts : t.restarts = s.restarts)
    (members : t.members = s.members) : t.IsDownForGood p l where
  toIsDown := by
    refine h.toIsDown.congr ?_ (fun i ↦ ?_) (fun j ↦ ?_)
    · rw [lifecycle?, ensemble]
      rfl
    · rw [IsGoing, cycles]
      exact id
    · rw [IsRestarting, restarts]
      exact id
  known failed := by
    rw [account_of_members members, failures, lifecycle?, ensemble]
    exact h.known failed

theorem Fits.name_of_place? (h : s.Fits S) (hl : s.lifecycle? p = some l) {name : String}
    (place : S.place? name = some p) : l.name = name := by
  obtain ⟨post, hpost, named⟩ := Setup.exists_post_of_place? place
  obtain ⟨post', hpost', named'⟩ := h.exists_post hl
  cases hpost.symm.trans hpost'
  exact named'.symm.trans named

/-- Whoever has failed with nobody having acted on it is down: neither a cycle nor a restart has the
turn. -/
theorem Turn.isDown (turn : s.Turn p) (new : (s.account p).handled < s.failures p)
    (hl : s.lifecycle? p = some l) : l.status = .failed ∧ s.IsDown p l := by
  cases turn with
  | cycle one calm known => exact absurd new (Nat.not_lt_of_le known)
  | restart ended one known => exact absurd new (Nat.not_lt_of_le known)
  | failure ended calm failed =>
    have status := failed l hl
    exact ⟨status, hl, by rw [status]; rfl, fun _ ↦ ended, fun _ ↦ calm⟩

/-- A cycle leaves alone who is down. -/
theorem CycleStep.isDown (h : CycleStep S i c s t) (meek : S.IsMeek) (hc : s.cycles[i]? = some c)
    (hf : s.Fits S) (steady : s.IsSteady) (restarts : t.restarts = s.restarts)
    (hs : s.IsDown p l) : t.IsDown p l := by
  have waits (j : Nat) : t.IsRestarting p j → s.IsRestarting p j := by
    rw [IsRestarting, restarts]
    exact id
  obtain ⟨k, hk⟩ := hf.exists_lifecycle (hf.cycles i c hc)
  have suits := steady.suits i c k hc hk
  obtain ⟨c', k', hc', place, -, drives⟩ := h.drives meek hc hk suits
  obtain ⟨others, elsewhere⟩ := h.frame
  by_cases own : p = c.place
  · subst own
    cases hk.symm.trans hs.here
    rcases hs.crashed_or_failed with crashed | failed
    · have same := h.lifecycle?_of_isFailure meek hc hk suits hs.failing (.inl crashed)
      have other : l.status ≠ .failed := by
        rw [crashed]
        nofun
      exact ⟨same, hs.failing, fun failed ↦ absurd failed other, fun failed ↦ absurd failed other⟩
    · have isOver : c.stage = .finished := Classical.byContradiction fun going ↦
        hs.ended failed i ⟨c, hc, rfl, going⟩
      have same := h.lifecycle?_of_isFailure meek hc hk suits hs.failing (.inr isOver)
      refine hs.congr (same.trans hk.symm) (fun j ⟨d, hd, here, still⟩ ↦ ?_) waits
      by_cases this : j = i
      · subst this
        cases hc'.symm.trans hd
        rw [(drives.of_finished isOver).1] at still
        exact absurd isOver still
      · exact ⟨d, others j this ▸ hd, here, still⟩
  · refine hs.congr (elsewhere p own) (fun j ⟨d, hd, here, still⟩ ↦ ?_) waits
    by_cases this : j = i
    · subst this
      cases hc'.symm.trans hd
      exact absurd (here.symm.trans place) own
    · exact ⟨d, others j this ▸ hd, here, still⟩

end State

section Changes

variable {S : Setup} {admits : Deed → Prop} {who : Option Task} {s s' : State} {p : Nat}
  {l : Lifecycle}

/-- Others leave alone who is down, unless it is a watcher with a failure to act on. -/
theorem Change.isDown (h : Change S admits who s s') (unmarked : ∀ p m, ¬ admits (.mark p m))
    (other : ∀ i, who ≠ some (.cycle i)) (begun : who = some .host → s.host ≠ .fresh)
    (hf : s.Fits S)
    (idle : (∃ i, who = some (.watcher i)) → l.status = .failed →
      s.failures p ≤ (s.account p).handled)
    (hs : s.IsDown p l) : s'.IsDown p l where
  here := (h.lifecycle?_of_other unmarked other p).trans hs.here
  failing := hs.failing
  ended failed i going := by
    rcases h.isGoing_before hf begun going with there | ⟨-, -, j, -, starts⟩
    · exact hs.ended failed i there
    · exact hs.calm failed j starts.isRestarting
  calm failed j waits := by
    rcases h.isRestarting_before hf waits with there | ⟨watcher, -, new, -⟩
    · exact hs.calm failed j there
    · exact absurd new (Nat.not_lt_of_le (idle watcher failed))

theorem Change.isDownForGood (h : Change S admits who s s')
    (unmarked : ∀ p m, ¬ admits (.mark p m)) (other : ∀ i, who ≠ some (.cycle i))
    (begun : who = some .host → s.host ≠ .fresh) (hf : s.Fits S) (hs : s.IsDownForGood p l) :
    s'.IsDownForGood p l where
  toIsDown := h.isDown unmarked other begun hf (fun _ ↦ hs.known) hs.toIsDown
  known failed := h.failures_le_handled (fun p m marked ↦ absurd marked (unmarked p m)) other hf
    (hs.known failed)

/-- A run that has begun does not begin again by itself. -/
theorem Change.begun (h : Change S admits who s s')
    (begun : who = some .host → s.host ≠ .fresh) : who = some .host → s'.host ≠ .fresh := by
  intro host
  rcases h.host with same | ⟨-, moved, -⟩ | ⟨nobody, -⟩
  · exact same ▸ begun host
  · exact moved
  · rw [host] at nobody
    cases nobody

theorem Changes.isDown (h : Changes S admits who s s') (unmarked : ∀ p m, ¬ admits (.mark p m))
    (other : ∀ i, who ≠ some (.cycle i)) (begun : who = some .host → s.host ≠ .fresh)
    (ho : s.IsOrderly) (hf : s.Fits S) (watchers : ∀ i, who ≠ some (.watcher i))
    (hs : s.IsDown p l) : s'.IsDown p l :=
  (h.keeps (P := fun t ↦ t.Fits S ∧ (who = some .host → t.host ≠ .fresh) ∧ t.IsDown p l)
    (fun _ ⟨hf, begun, hs⟩ change ↦ ⟨change.fits hf, change.begun begun,
      change.isDown unmarked other begun hf (fun ⟨i, own⟩ ↦ absurd own (watchers i)) hs⟩)
    ho ⟨hf, begun, hs⟩).2.2.2

theorem Changes.isDownForGood (h : Changes S admits who s s')
    (unmarked : ∀ p m, ¬ admits (.mark p m)) (other : ∀ i, who ≠ some (.cycle i))
    (begun : who = some .host → s.host ≠ .fresh) (ho : s.IsOrderly) (hf : s.Fits S)
    (hs : s.IsDownForGood p l) : s'.IsDownForGood p l :=
  (h.keeps (P := fun t ↦ t.Fits S ∧ (who = some .host → t.host ≠ .fresh) ∧ t.IsDownForGood p l)
    (fun _ ⟨hf, begun, hs⟩ change ↦ ⟨change.fits hf, change.begun begun,
      change.isDownForGood unmarked other begun hf hs⟩) ho ⟨hf, begun, hs⟩).2.2.2

/-- **Who is down for good stays so.** -/
theorem Step.isDownForGood (h : Step S admits s s') (meek : S.IsMeek)
    (unmarked : ∀ p m, ¬ admits (.mark p m)) (ho : s.IsOrderly) (hf : s.Fits S)
    (steady : s.IsSteady) (begun : s.host ≠ .fresh) (hs : s.IsDownForGood p l) :
    s'.IsDownForGood p l := by
  rcases h.turn_or_changes ho (fun t ↦ ∃ i, t = .cycle i) with
    ⟨_, ⟨i, rfl⟩, rfl⟩ | ⟨who, other, chain⟩
  · cases hc : s.cycles[i]? with
    | none =>
      rw [State.step_cycle_of_none hc]
      exact hs
    | some c =>
      have chain : Changes S admits (some (.cycle i)) s (s.step S (.cycle i)) :=
        State.changes_step (.cycle i) s ho
      obtain ⟨restarts, account⟩ := chain.of_cycle p
      have down : (s.step S (.cycle i)).IsDown p l :=
        (State.cycleStep_step hc).isDown meek hc hf steady restarts hs.toIsDown
      refine ⟨down, fun failed ↦ ?_⟩
      rw [account, State.failures_eq down.here, ← State.failures_eq hs.here]
      exact hs.known failed
  · exact chain.isDownForGood unmarked (fun i ↦ other _ ⟨i, rfl⟩) (fun _ ↦ begun) ho hf hs

end Changes

/-! ### Grounds -/

namespace State

/-- What an escalation over a resource that stands as `l` may say: over a crash, the message of the
failure; over a failure, that no restarts are left, with the message of a failure that the resource
has told of. If `latest`, that is the latest. -/
inductive Blames (S : Setup) (latest : Prop) (l : Lifecycle) (s : State) (reason : String) :
    Prop where
  | crash {f : Failure} (status : l.status = .crashed) (last : l.lastFailure = some f)
      (text : reason = f.message)
  | failure {f told : Failure} {source : Status} (status : l.status = .failed)
      (last : l.lastFailure = some f)
      (news : .transition ⟨l.name, source, .failed, some told⟩ ∈ s.ensemble.bus.sent)
      (same : latest → told = f)
      (text : reason = exhaustedText S.settings.maxRestarts told.message)

/-- An escalation is over a resource that is down for good, and says why it is. -/
def IsFounded (S : Setup) (latest : Prop) (s : State) : Prop :=
  ∀ resource reason, s.cause = some (.escalated resource reason) →
    ∃ p l, l.name = resource ∧ s.IsDownForGood p l ∧ Blames S latest l s reason

variable {S : Setup} {latest : Prop} {i p : Nat} {l : Lifecycle} {s t : State}

theorem Blames.grows {reason : String} (h : Blames S latest l s reason)
    (news : ∀ e ∈ s.ensemble.bus.sent, e ∈ t.ensemble.bus.sent) : Blames S latest l t reason := by
  cases h with
  | crash status last text => exact .crash status last text
  | failure status last told same text => exact .failure status last (news _ told) same text

theorem isFounded_of_unasked (here : s.isRequested = false) : s.IsFounded S latest :=
  fun _ _ escalated ↦ absurd escalated (not_escalated_of_cause here rfl)

theorem IsFounded.congr (h : s.IsFounded S latest) (ensemble : t.ensemble = s.ensemble)
    (cycles : t.cycles = s.cycles) (restarts : t.restarts = s.restarts)
    (members : t.members = s.members) : t.IsFounded S latest := by
  intro resource reason escalated
  obtain ⟨p, l, name, down, blames⟩ :=
    h resource reason ((cause_of_ensemble ensemble).symm.trans escalated)
  exact ⟨p, l, name, down.congr ensemble cycles restarts members,
    blames.grows fun e he ↦ ensemble ▸ he⟩

/-- What a watcher that acts may rely on. -/
structure IsJudged (S : Setup) (s : State) : Prop where
  informed : s.IsInformed S
  turn : ∀ p, s.Turn p

end State

section Changes

variable {S : Setup} {latest : Prop} {admits : Deed → Prop} {who : Option Task} {s s' : State}

/-- The grounds of an escalation stay. -/
theorem Change.isFounded (h : Change S admits who s s') (unmarked : ∀ p m, ¬ admits (.mark p m))
    (other : ∀ i, who ≠ some (.cycle i)) (begun : who = some .host → s.host ≠ .fresh)
    (hf : s.Fits S) (asked : s.isRequested = true) (hs : s.IsFounded S latest) :
    s'.IsFounded S latest := by
  intro resource reason escalated
  obtain ⟨cause, hc⟩ := Option.isSome_iff_exists.1 asked
  cases (h.cause hc).symm.trans escalated
  obtain ⟨p, l, name, down, blames⟩ := hs resource reason hc
  exact ⟨p, l, name, h.isDownForGood unmarked other begun hf down,
    blames.grows fun _ ↦ h.grows.mem_sent⟩

end Changes

/-! ### A watcher that escalates -/

namespace State

variable {S : Setup} {latest : Prop} {i p : Nat} {l : Lifecycle} {s t : State}

/-- A watcher that escalates over a failure has grounds to. -/
theorem isFounded_onFailed (judged : s.IsJudged S) {resource : String} {source : Status}
    {told : Failure} (here : s.isRequested = false)
    (news : .transition ⟨resource, source, .failed, some told⟩ ∈ s.ensemble.bus.sent)
    (same : latest → ∀ p l, s.lifecycle? p = some l → l.name = resource →
      l.lastFailure = some told) :
    (s.onFailed S resource told.message).state.IsFounded S latest := by
  obtain ⟨⟨sound, record, -, -, budget⟩, turn⟩ := judged
  have heed := heed_onFailed S resource told.message s
  have grows : Grows s (s.onFailed S resource told.message).state := grows_onFailed ..
  generalize s.onFailed S resource told.message = r at heed grows ⊢
  cases heed with
  | ignored | broken | old | pending | restart => exact isFounded_of_unasked here
  | @exhausted place hp _ new spent =>
    have hplace := Setup.lt_of_place? hp
    obtain ⟨l, hl⟩ := sound.fits.exists_lifecycle hplace
    have named := sound.fits.name_of_place? hl hp
    subst named
    obtain ⟨status, down⟩ := (turn place).isDown new hl
    obtain ⟨source', f, last, -⟩ := record place l hl down.failing
    have spent : (s.account place).attempts = S.settings.maxRestarts :=
      Nat.le_antisymm (budget place) spent
    have latest' (h : latest) : told = f :=
      Option.some.inj ((same h place l hl rfl).symm.trans last)
    have account := account_setAccount_self (s := s)
      { s.account place with handled := s.failures place } (sound.fits.size ▸ hplace)
    intro resource' reason escalated
    have asked := cause_request_of_unasked (s := (s.setAccount place
      { s.account place with handled := s.failures place }).publish
        (.exhausted l.name (s.account place).attempts told.message))
      (.escalated l.name (exhaustedText (s.account place).attempts told.message)) here
    cases asked.symm.trans escalated
    refine ⟨place, l, rfl, ⟨down.congr (lifecycle?_request _ place) ?_ ?_, fun _ ↦ ?_⟩, ?_⟩
    · rw [request_frame]
      exact fun _ ↦ id
    · rw [request_frame]
      exact fun _ ↦ id
    · rw [failures, lifecycle?_request, request_frame]
      exact Nat.le_of_eq (congrArg Account.handled account).symm
    · exact .failure status last (grows.mem_sent news) latest' (by rw [spent])

/-- A watcher that escalates over a crash has grounds to. -/
theorem isFounded_escalate {f : Failure} (here : s.isRequested = false)
    (hl : s.lifecycle? p = some l) (crashed : l.status = .crashed) (last : l.lastFailure = some f) :
    (s.escalate l.name f.message).IsFounded S latest := by
  unfold escalate
  rw [here, if_neg Bool.false_ne_true]
  have other : l.status ≠ .failed := by
    rw [crashed]
    nofun
  intro resource reason escalated
  cases (cause_request_of_unasked _ here).symm.trans escalated
  refine ⟨p, l, rfl, ⟨⟨?_, ?_, fun failed ↦ absurd failed other, fun failed ↦ absurd failed other⟩,
    fun failed ↦ absurd failed other⟩, .crash crashed last rfl⟩
  · exact (lifecycle?_request _ p).trans hl
  · rw [crashed]
    rfl

theorem isFounded_onRunning (here : s.isRequested = false) (resource : String) :
    (s.onRunning S resource).IsFounded S latest := by
  unfold onRunning
  split
  · exact isFounded_of_unasked here
  · exact isFounded_of_unasked here

/-- The news of a failure that stands at a position, if it is one, is the latest of its resource. -/
def IsLatest (position : Nat) (s : State) : Prop :=
  ∀ e, s.ensemble.bus.sent[position]? = some e → ∀ p l, s.lifecycle? p = some l →
    e.Tells l.name .failed → ∃ m, e = .transition m ∧ l.lastFailure = m.failure

/-- **A watcher that acts on an event has grounds to escalate.** -/
theorem isFounded_onEvent (judged : s.IsJudged S) (here : s.isRequested = false) {k : Nat}
    {e : Event} (he : s.ensemble.bus.sent[k]? = some e) (new : latest → s.IsLatest k) :
    (s.onEvent S e).state.IsFounded S latest := by
  have mem : e ∈ s.ensemble.bus.sent := Array.mem_of_getElem? he
  have idle : s.IsFounded S latest := isFounded_of_unasked here
  unfold onEvent
  split
  · rename_i kind
    split
    · exact idle
    · rename_i m move
      dsimp only
      cases target : m.target with
      | failed =>
        have tells : e.Tells m.resource .failed := ⟨kind, m, move, rfl, target⟩
        obtain ⟨m', told, rfl, failure⟩ := judged.informed.frank e mem m.resource tells
        cases move
        rw [failure]
        have news : .transition ⟨m.resource, m.source, .failed, some told⟩ ∈
            s.ensemble.bus.sent := by
          rw [← target, ← failure]
          exact mem
        refine isFounded_onFailed judged here news fun h p l hl name ↦ ?_
        obtain ⟨m', same, last⟩ := new h _ he p l hl (name ▸ tells)
        obtain rfl := Option.some.inj (congrArg Event.move same)
        exact last.trans failure
      | crashed =>
        have crash : (Recorder.crash? e).isSome = true := by
          rw [Recorder.crash?, if_pos kind, move]
          simp [target]
        obtain ⟨m', rfl, p, l, f, hl, name, status, -, failure, last⟩ :=
          judged.informed.honest e (.inr mem) crash
        obtain rfl : m' = m := Option.some.inj move
        rw [failure, ← name]
        exact isFounded_escalate here hl status last
      | running => exact isFounded_onRunning here _
      | _ => exact idle
  · exact idle

/-- A watcher that looks at a resource has grounds to escalate. -/
theorem isFounded_rescanOne (judged : s.IsJudged S) (distinct : S.names.Nodup)
    (here : s.isRequested = false) (p : Nat) : (s.rescanOne S p).state.IsFounded S latest := by
  have idle : s.IsFounded S latest := isFounded_of_unasked here
  unfold rescanOne
  cases hl : s.lifecycle? p with
  | none => exact idle
  | some l =>
    dsimp only
    cases status : l.status with
    | failed =>
      obtain ⟨source, f, last, news⟩ := judged.informed.record p l hl (by rw [status]; rfl)
      rw [status] at news
      rw [last]
      refine isFounded_onFailed judged here news fun _ q k hk name ↦ ?_
      have fits := judged.informed.sound.fits
      have place := fits.place?_name distinct hk
      rw [name, fits.place?_name distinct hl] at place
      cases place
      cases hl.symm.trans hk
      exact last
    | crashed =>
      obtain ⟨source, f, last, -⟩ := judged.informed.record p l hl (by rw [status]; rfl)
      rw [last]
      exact isFounded_escalate here hl status last
    | running =>
      dsimp only
      split
      · exact isFounded_onRunning here _
      · exact idle
    | _ => exact idle

theorem IsJudged.change {who : Option Task} (judged : s.IsJudged S)
    (h : Change S (fun _ ↦ False) who s t) (other : ∀ i, who ≠ some (.cycle i))
    (host : who ≠ some .host) : t.IsJudged S where
  informed := h.isInformed (fun _ _ ↦ False.elim) judged.informed
  turn p := h.passes_turn (fun _ _ ↦ False.elim) other (fun own ↦ absurd own host)
    judged.informed.sound.fits (judged.turn p)

theorem Reacts.isJudged (h : Reacts S i s t) (judged : s.IsJudged S) : t.IsJudged S := by
  induction h with
  | refl => exact judged
  | tail _ last ih => exact ih.change last.1 nofun nofun

/-- What a watcher does after an escalation takes nobody's grounds away. -/
theorem Reacts.isFounded (h : Reacts S i s t) (judged : s.IsJudged S) (asked : s.isRequested = true)
    (hs : s.IsFounded S latest) : t.IsFounded S latest := by
  have both : t.isRequested = true ∧ t.IsFounded S latest := by
    induction h with
    | refl => exact ⟨asked, hs⟩
    | tail before last ih =>
      obtain ⟨asked, founded⟩ := ih
      obtain ⟨change, -⟩ := last
      exact ⟨change.isRequested asked, change.isFounded (fun _ _ ↦ id) nofun nofun
        (Reacts.isJudged before judged).informed.sound.fits asked founded⟩
  exact both.2

/-- A watcher that looks at resources one after the other has grounds to escalate. -/
theorem isFounded_rescanFrom (judged : s.IsJudged S) (distinct : S.names.Nodup)
    (hs : s.IsFounded S latest) (places : List Nat) :
    (s.rescanFrom S places).state.IsFounded S latest := by
  induction places generalizing s with
  | nil => exact hs
  | cons place rest ih =>
    have reacts := Reacts.rescanOne (S := S) (i := 0) place s
    have founded : (s.rescanOne S place).state.IsFounded S latest := by
      cases here : s.isRequested with
      | true => exact reacts.isFounded judged here hs
      | false => exact isFounded_rescanOne judged distinct here place
    have judged' := reacts.isJudged judged
    unfold rescanFrom
    generalize s.rescanOne S place = r at founded judged'
    obtain ⟨t, broke⟩ := r
    cases broke with
    | none => exact ih judged' founded
    | some e => exact founded

/-- What can come of a step of watcher `i`. -/
inductive Watches (S : Setup) (i : Nat) (s : State) : State → Prop where
  | rests : Watches S i s s
  /-- The shutdown has begun. -/
  | ends {w : Watcher} (hw : s.watchers[i]? = some w) (asked : s.isRequested = true) :
      Watches S i s ((s.setWatcher i { w with isOver := true }).enter (.ended (.watcher i)))
  /-- It takes the next event. -/
  | acts {w : Watcher} {e : Event} (hw : s.watchers[i]? = some w) (going : w.isOver = false)
      (here : s.isRequested = false) (he : s.ensemble.bus.sent[w.next]? = some e) :
      Watches S i s (watcherAfter i { w with next := w.next + 1 }
        ((s.setWatcher i { w with next := w.next + 1 }).onEvent S e))
  /-- It has missed events. -/
  | looks {w : Watcher} {count next : Nat} (hw : s.watchers[i]? = some w)
      (going : w.isOver = false) (here : s.isRequested = false)
      (missed : s.ensemble.bus.receive w.next = .missed count next) :
      Watches S i s (watcherAfter i { w with next := next }
        ((s.setWatcher i { w with next := next }).rescan S))

theorem watches_stepWatcher (S : Setup) (i : Nat) (s : State) :
    Watches S i s (s.stepWatcher S i) := by
  unfold stepWatcher
  split
  · exact .rests
  · rename_i w hw
    split
    · exact .rests
    · rename_i going
      split
      · exact .ends hw ‹_›
      · rename_i unasked
        have here : s.isRequested = false := Bool.eq_false_iff.2 unasked
        split
        · exact .rests
        · rename_i e next received
          obtain ⟨he, rfl⟩ := Bus.receive_eq_event received
          exact .acts hw (Bool.eq_false_iff.2 going) here he
        · exact .looks hw (Bool.eq_false_iff.2 going) here ‹_›

/-- **A watcher that escalates has grounds to.** -/
theorem isFounded_stepWatcher (judged : s.IsJudged S) (distinct : S.names.Nodup)
    (here : s.isRequested = false)
    (new : latest → ∀ w : Watcher, s.watchers[i]? = some w → w.isOver = false → s.IsLatest w.next) :
    (s.stepWatcher S i).IsFounded S latest := by
  have moved (w : Watcher) : (s.setWatcher i w).IsJudged S :=
    judged.change (.turn (i := i) w) nofun nofun
  have after {w : Watcher} {r : Watched} (founded : r.state.IsFounded S latest) :
      (watcherAfter i w r).IsFounded S latest := by
    unfold watcherAfter
    split
    · exact founded
    · exact founded.congr rfl rfl rfl rfl
  have step := watches_stepWatcher S i s
  generalize s.stepWatcher S i = t at step ⊢
  cases step with
  | rests => exact isFounded_of_unasked here
  | ends hw asked =>
    rw [here] at asked
    cases asked
  | acts hw going _ he =>
    exact after (isFounded_onEvent (moved _) here he fun h ↦ new h _ hw going)
  | looks hw going _ missed =>
    exact after (isFounded_rescanFrom (moved _) distinct (isFounded_of_unasked here) _)

end State

section Run

variable {S : Setup} {latest : Prop} {admits : Deed → Prop} {s s' : State}

/-- **Whatever happens, an escalation has grounds**, where hooks leave the status alone and nobody
else asks for one. -/
theorem Step.isFounded (h : Step S admits s s') (meek : S.IsMeek) (distinct : S.names.Nodup)
    (unmarked : ∀ p m, ¬ admits (.mark p m)) (deeds : Deed.IsCalm admits) (calm : s.IsCalm)
    (judged : s.IsJudged S) (steady : s.IsSteady)
    (first : s.host = .fresh → s.IsUntouched)
    (new : latest → s.isRequested = false → ∀ (i : Nat) (w : Watcher), s.watchers[i]? = some w →
      w.isOver = false → s.IsLatest w.next)
    (hs : s.IsFounded S latest) : s'.IsFounded S latest := by
  have ho := judged.informed.sound.orderly
  have hf := judged.informed.sound.fits
  intro resource reason escalated
  cases here : s.isRequested with
  | false =>
    obtain ⟨i, rfl⟩ := h.watcher_of_escalated deeds calm here escalated
    exact State.isFounded_stepWatcher judged distinct here (fun h ↦ new h here i) _ _ escalated
  | true =>
    obtain ⟨cause, hc⟩ := Option.isSome_iff_exists.1 here
    cases ((Reaches.step (.refl s) h).cause ho hc).symm.trans escalated
    obtain ⟨p, l, name, down, blames⟩ := hs resource reason hc
    -- Before the run has begun, nobody has failed.
    have begun : s.host ≠ .fresh := fun fresh ↦ by
      have failing := down.failing
      rw [((first fresh).lifecycles p l down.here).1] at failing
      cases failing
    exact ⟨p, l, name, h.isDownForGood meek unmarked ho hf steady begun down,
      blames.grows fun _ ↦ h.grows.mem_sent⟩

end Run

end Supervision
