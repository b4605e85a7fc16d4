import Supervision.Proofs.Supervisor.Ledger
import Supervision.Proofs.Supervisor.Steps
import Supervision.Supervisor.Growth

/-!
# Who enters what

The chronicle is all that can be told of a run later, so it matters who enters what. What a task
publishes is of certain kinds (`EventKind.IsSaidBy`), and what else it enters is about itself
(`Happening.IsBy`): a hook of a cycle is called by that cycle, restarts are scheduled by watchers,
how a stop ended is for the host to say. Everything is entered with the moment at which it happens.

* `Change.enters` — who enters what, for every change.
* `State.Enters`, `State.Says` — the same of one state and a later one: all that is entered, or
  published, in between is such.
-/

namespace Supervision

/-! ### What a mark publishes -/

/-- It tells where a resource stands, or whether it can serve. -/
def EventKind.isNews : EventKind → Bool
  | .transition | .readinessChanged => true
  | _ => false

theorem EventKind.isRestart_of_isNews {k : EventKind} (news : k.isNews = true) :
    k.isRestart = false := by
  cases k <;> first | rfl | cases news

namespace Lifecycle

variable {c c' : Lifecycle} {published : List Publication}

theorem kind_of_mem_setReadiness {r : Readiness} {x : Publication}
    (h : x ∈ (c.setReadiness r).2) : x.event.kind.isNews = true := by
  unfold setReadiness at h
  split at h
  · cases h
  · cases List.mem_singleton.1 h
    rfl

theorem kind_of_mem_move {target : Status} {failure : Option Failure}
    (h : c.move target failure = .ok (c', published)) :
    ∀ x ∈ published, x.event.kind.isNews = true := by
  intro x hx
  unfold move at h
  split at h
  · cases hr : readinessAfter? target failure with
    | none =>
      rw [hr] at h
      cases h
      cases List.mem_singleton.1 hx
      rfl
    | some r =>
      rw [hr] at h
      cases h
      rcases List.mem_append.1 hx with hx | hx
      · exact kind_of_mem_setReadiness hx
      · cases List.mem_singleton.1 hx
        rfl
  · cases h

/-- A mark tells of its resource and of nothing else. -/
theorem kind_of_mem_mark {m : Mark} (h : c.mark m = .ok (c', published)) :
    ∀ x ∈ published, x.event.kind.isNews = true := by
  have ready : ∀ {r}, .ok (c.setReadiness r) = (.ok (c', published) : Except IllegalMove _) →
      ∀ x ∈ published, x.event.kind.isNews = true := by
    intro r h x hx
    have said : (c.setReadiness r).2 = published := congrArg Prod.snd (Except.ok.inj h)
    exact kind_of_mem_setReadiness (said ▸ hx)
  cases m with
  | starting => exact kind_of_mem_move (show c.move .starting none = _ from h)
  | running => exact kind_of_mem_move (show c.move .running none = _ from h)
  | stopped => exact kind_of_mem_move (show c.move .stopped none = _ from h)
  | failed f => exact kind_of_mem_move (show c.move .failed (some f) = _ from h)
  | crashed f => exact kind_of_mem_move (show c.move .crashed (some f) = _ from h)
  | ready =>
    unfold mark setReady at h
    dsimp only at h
    split at h
    · cases h
      exact fun x hx ↦ absurd hx List.not_mem_nil
    · exact ready h
  | notReady reason => exact ready h

end Lifecycle

/-! ### Who says what -/

/-- Only a supervisor itself says so. -/
def EventKind.isOwn (k : EventKind) : Bool :=
  k.isRestart || k.endsStop || k = .shutdownRequested

theorem EventKind.isOwn_eq_false {k : EventKind} :
    k.isOwn = false ↔ k.isRestart = false ∧ k.endsStop = false ∧ k ≠ .shutdownRequested := by
  simp [isOwn, and_assoc]

theorem EventKind.isOwn_of_isNews {k : EventKind} (news : k.isNews = true) : k.isOwn = false := by
  cases k <;> first | rfl | cases news

/-- Who publishes events of a kind. -/
def EventKind.IsSaidBy (who : Option Task) : EventKind → Prop
  | .restartScheduled | .restartExhausted => ∃ i, who = some (.watcher i)
  | .restartRecovered => ∃ i, who = some (.confirmation i)
  | .allStoppedWithin | .graceExceeded => who = some .host
  | _ => True

theorem EventKind.isSaidBy_of_isNews {k : EventKind} {who : Option Task} (news : k.isNews = true) :
    k.IsSaidBy who := by
  cases k <;> trivial

theorem EventKind.isSaidBy_of_not_own {k : EventKind} {who : Option Task}
    (other : k.isOwn = false) : k.IsSaidBy who := by
  cases k <;> trivial

theorem EventKind.isSaidBy_of_isReport {k : EventKind} {t : Task} (report : k.isReport = true)
    (own : k.endsStop = true → t = .host) : k.IsSaidBy (some t) := by
  cases k with
  | allStoppedWithin => exact congrArg some (own rfl)
  | graceExceeded => exact congrArg some (own rfl)
  | _ => trivial

/-- Who enters a happening. -/
def Happening.IsBy (who : Option Task) : Happening → Prop
  | .published e => e.kind.IsSaidBy who
  | .started (.cycle _) => who = some .host ∨ ∃ j, who = some (.restart j)
  | .started (.restart _) | .started (.confirmation _) => ∃ i, who = some (.watcher i)
  | .cancelled _ => who = some .host ∨ ∃ j, who = some (.restart j)
  | .started _ | .noted _ _ | .asked _ _ => True
  | .ended t | .broke t _ | .sawReady t _ => who = some t
  | .called i _ | .returned i _ _ | .flinched i _ _ => who = some (.cycle i)
  | .relayed _ | .missed _ _ => who = some .relay
  | .aborted _ | .stopped _ => who = some .host

theorem Happening.IsNoteOf.isBy {who : Option Task} {h : Happening} (own : h.IsNoteOf who) :
    h.IsBy who := by
  cases h with
  | started t => cases t <;> trivial
  | published e => exact own.elim
  | asked c admitted => trivial
  | cancelled i => exact own.elim
  | aborted i => exact own.elim
  | noted place text => trivial
  | _ => exact own

namespace State

variable {s t u : State}

/-- What entries of one kind tell, in order. -/
def view {α : Type} (f : Entry → Option α) (s : State) : List α := s.chronicle.toList.filterMap f

theorem view_of_chronicle {α : Type} {f : Entry → Option α} (h : t.chronicle = s.chronicle) :
    t.view f = s.view f := by
  unfold view
  rw [h]

theorem view_enter {α : Type} (f : Entry → Option α) (h : Happening) (s : State) :
    (s.enter h).view f = s.view f ++ (f ⟨s.now, h⟩).toList := by
  unfold view enter
  rw [Array.toList_push, List.filterMap_append]
  cases he : f ⟨s.now, h⟩ <;> simp [he]

/-- What was published shows up among what was published only. -/
theorem view_publishAll {α : Type} {f : Entry → Option α}
    (other : ∀ m e, f ⟨m, .published e⟩ = none) (es : List Event) (s : State) :
    (s.publishAll es).view f = s.view f := by
  induction es generalizing s with
  | nil => rfl
  | cons e es ih =>
    have first : (s.publish e).view f = s.view f := by
      have entered := view_enter f (.published e) { s with ensemble := s.ensemble.publish [e] }
      rw [other] at entered
      exact entered.trans (List.append_nil _)
    exact (ih (s.publish e)).trans first

/-- What has been published, in order. -/
def events (s : State) : List Event := s.published.map (·.2)

theorem events_of_chronicle (h : t.chronicle = s.chronicle) : t.events = s.events := by
  unfold events published
  rw [h]

theorem events_enter (h : Happening) (s : State) :
    (s.enter h).events = s.events ++ (Entry.mk s.now h).published?.toList := by
  unfold events
  rw [published_enter, List.map_append]
  cases (Entry.mk s.now h).published? <;> rfl

theorem events_enter_of_quiet {h : Happening} (quiet : h.isPublication = false) :
    (s.enter h).events = s.events := by
  rw [events_enter]
  cases h with
  | published e => cases quiet
  | _ => exact List.append_nil _

theorem events_publish (e : Event) (s : State) : (s.publish e).events = s.events ++ [e] :=
  events_enter (.published e) { s with ensemble := s.ensemble.publish [e] }

theorem events_publishAll (es : List Event) (s : State) :
    (s.publishAll es).events = s.events ++ es := by
  induction es generalizing s with
  | nil => exact (List.append_nil _).symm
  | cons e es ih =>
    have h : s.publishAll (e :: es) = (s.publish e).publishAll es := rfl
    rw [h, ih, events_publish, List.append_assoc]
    rfl

/-- From one state to another, all that is said is such. -/
def Says (P : Event → Prop) (s t : State) : Prop :=
  ∃ more, t.events = s.events ++ more ∧ ∀ e ∈ more, P e

namespace Says

variable {P Q : Event → Prop}

theorem of_events (h : t.events = s.events) : Says P s t :=
  ⟨[], by rw [h, List.append_nil], fun _ he ↦ absurd he List.not_mem_nil⟩

theorem of_chronicle (h : t.chronicle = s.chronicle) : Says P s t :=
  of_events (events_of_chronicle h)

theorem trans (h : Says P s t) (h' : Says P t u) : Says P s u := by
  obtain ⟨more, events, said⟩ := h
  obtain ⟨more', events', said'⟩ := h'
  refine ⟨more ++ more', by rw [events', events, List.append_assoc], fun e he ↦ ?_⟩
  rcases List.mem_append.1 he with he | he
  · exact said e he
  · exact said' e he

theorem mono (h : Says P s t) (imp : ∀ e, P e → Q e) : Says Q s t := by
  obtain ⟨more, events, said⟩ := h
  exact ⟨more, events, fun e he ↦ imp e (said e he)⟩

theorem enter (h : Says P s t) {what : Happening} (quiet : what.isPublication = false) :
    Says P s (t.enter what) :=
  h.trans (of_events (events_enter_of_quiet quiet))

theorem publishAll {es : List Event} (h : Says P s t) (said : ∀ e ∈ es, P e) :
    Says P s (t.publishAll es) :=
  h.trans ⟨es, events_publishAll es t, said⟩

theorem publish {e : Event} (h : Says P s t) (said : P e) : Says P s (t.publish e) := by
  refine h.trans ⟨[e], events_publish e t, fun d hd ↦ ?_⟩
  cases List.mem_singleton.1 hd
  exact said

end Says

/-! ### What is entered in between -/

/-- From one state to another, all that is entered is such. -/
def Enters (P : Entry → Prop) (s t : State) : Prop :=
  ∃ more : List Entry, t.chronicle = s.chronicle ++ more.toArray ∧ ∀ x ∈ more, P x

namespace Enters

variable {P Q : Entry → Prop}

theorem of_eq (h : t.chronicle = s.chronicle) : Enters P s t :=
  ⟨[], by rw [h]; exact (Array.append_empty).symm, fun _ hx ↦ absurd hx List.not_mem_nil⟩

theorem trans (h : Enters P s t) (h' : Enters P t u) : Enters P s u := by
  obtain ⟨more, chronicle, entered⟩ := h
  obtain ⟨more', chronicle', entered'⟩ := h'
  refine ⟨more ++ more', ?_, fun x hx ↦ ?_⟩
  · simp [chronicle', chronicle]
  · rcases List.mem_append.1 hx with hx | hx
    · exact entered x hx
    · exact entered' x hx

theorem mono (h : Enters P s t) (imp : ∀ x, P x → Q x) : Enters Q s t := by
  obtain ⟨more, chronicle, entered⟩ := h
  exact ⟨more, chronicle, fun x hx ↦ imp x (entered x hx)⟩

theorem enter (h : Enters P s t) {what : Happening} (such : P ⟨t.now, what⟩) :
    Enters P s (t.enter what) := by
  refine h.trans ⟨[⟨t.now, what⟩], ?_, fun x hx ↦ ?_⟩
  · unfold State.enter
    exact Array.push_eq_append
  · cases List.mem_singleton.1 hx
    exact such

theorem publish {e : Event} (h : Enters P s t) (such : P ⟨t.now, .published e⟩) :
    Enters P s (t.publish e) := by
  have sent : Enters P s { t with ensemble := t.ensemble.publish [e] } := h.trans (.of_eq rfl)
  exact sent.enter such

theorem publishAll {es : List Event} (h : Enters P s t)
    (such : ∀ e ∈ es, P ⟨t.now, .published e⟩) : Enters P s (t.publishAll es) := by
  refine h.trans ⟨es.map fun e ↦ ⟨t.now, .published e⟩, ?_, fun x hx ↦ ?_⟩
  · rw [publishAll_eq]
  · obtain ⟨e, he, rfl⟩ := List.mem_map.1 hx
    exact such e he

theorem mem (h : Enters P s t) {x : Entry} (hx : x ∈ t.chronicle) :
    x ∈ s.chronicle ∨ P x := by
  obtain ⟨more, chronicle, such⟩ := h
  rw [chronicle] at hx
  exact (Array.mem_append.1 hx).imp_right fun hx ↦ such x (List.mem_toArray.1 hx)

theorem of_push_push {a b : Entry}
    (h : t.chronicle = (s.chronicle.push a).push b) (ha : P a) (hb : P b) : Enters P s t := by
  refine ⟨[a, b], h.trans rfl, fun x hx ↦ ?_⟩
  rcases List.mem_cons.1 hx with rfl | hx
  · exact ha
  · cases List.mem_singleton.1 hx
    exact hb

theorem getElem? (h : Enters P s t) {k : Nat} {x : Entry}
    (hx : s.chronicle[k]? = some x) : t.chronicle[k]? = some x := by
  obtain ⟨more, chronicle, -⟩ := h
  obtain ⟨hk, -⟩ := Array.getElem?_eq_some_iff.1 hx
  rw [chronicle, Array.getElem?_append_left hk, hx]

theorem mem_of_mem (h : Enters P s t) {x : Entry}
    (hx : x ∈ s.chronicle) : x ∈ t.chronicle := by
  obtain ⟨more, chronicle, -⟩ := h
  rw [chronicle]
  exact Array.mem_append_left _ hx

/-- A view that shows nothing of what was entered shows what it showed before. -/
theorem view_eq (h : Enters P s t) {α : Type} {f : Entry → Option α}
    (none : ∀ x, P x → f x = none) : t.view f = s.view f := by
  obtain ⟨more, chronicle, such⟩ := h
  have hidden : more.filterMap f = [] :=
    List.filterMap_eq_nil_iff.2 fun x hx ↦ none x (such x hx)
  unfold view
  rw [chronicle, Array.toList_append, List.filterMap_append, hidden]
  exact List.append_nil _

/-- What stands in the chronicle stood there before, or was entered behind it. -/
theorem getElem?_cases (h : Enters P s t) {k : Nat} {x : Entry} (hx : t.chronicle[k]? = some x) :
    s.chronicle[k]? = some x ∨ s.chronicle.size ≤ k ∧ P x := by
  obtain ⟨more, chronicle, such⟩ := h
  rw [chronicle] at hx
  by_cases old : k < s.chronicle.size
  · rw [Array.getElem?_append_left old] at hx
    exact .inl hx
  · have new := Nat.le_of_not_lt old
    rw [Array.getElem?_append_right new] at hx
    exact .inr ⟨new, such x (List.mem_toArray.1 (Array.mem_of_getElem? hx))⟩

end Enters

/-- What is entered in between includes what is published. -/
theorem Enters.published {P : Event → Prop}
    (h : Enters (fun x ↦ ∀ e, x.what = .published e → P e) s t) : Says P s t := by
  obtain ⟨more, chronicle, entered⟩ := h
  refine ⟨more.filterMap (·.published?), ?_, fun e he ↦ ?_⟩
  · unfold events State.published
    have event : ∀ x : Entry,
        (x.published?.map (x.moment, ·)).map (·.2) = x.published? := by
      intro x
      cases x.published? <;> rfl
    rw [chronicle, Array.toList_append, List.filterMap_append, List.map_append,
      List.map_filterMap (l := more), funext event]
  · obtain ⟨x, hx, hp⟩ := List.mem_filterMap.1 he
    refine entered x hx e ?_
    unfold Entry.published? at hp
    split at hp
    · cases hp
      assumption
    · cases hp

end State

theorem State.Grows.events {s s' : State} (h : State.Grows s s') :
    ∃ more, s'.events = s.events ++ more := by
  obtain ⟨more, chronicle⟩ := h.chronicle
  refine ⟨(more.toList.filterMap fun e ↦ e.published?.map (e.moment, ·)).map (·.2), ?_⟩
  unfold State.events State.published
  rw [chronicle, Array.toList_append, List.filterMap_append, List.map_append]

theorem State.Grows.getElem? {s s' : State} (h : State.Grows s s') {k : Nat} {x : Entry}
    (hx : s.chronicle[k]? = some x) : s'.chronicle[k]? = some x := by
  obtain ⟨more, chronicle⟩ := h.chronicle
  obtain ⟨hk, -⟩ := Array.getElem?_eq_some_iff.1 hx
  rw [chronicle, Array.getElem?_append_left hk, hx]

/-! ### Who enters what -/

section Changes

variable {S : Setup} {admits : Deed → Prop} {who : Option Task} {s s' : State}

namespace State

/-- Whatever is entered is entered by whoever may, with the moment at which it happens. -/
def IsEntryOf (who : Option Task) (s : State) (x : Entry) : Prop :=
  x.moment = s.now ∧ x.what.IsBy who

theorem enters_mark {place : Nat} {m : Mark} (h : s.mark place m = .ok s') :
    Enters (s.IsEntryOf who) s s' := by
  rcases mark_cases h with ⟨-, rfl⟩ | ⟨c, c', published, -, hm, rfl⟩
  · exact .of_eq rfl
  · refine .publishAll (.of_eq rfl) fun e he ↦ ⟨rfl, ?_⟩
    obtain ⟨x, hx, rfl⟩ := List.mem_map.1 he
    exact EventKind.isSaidBy_of_isNews (Lifecycle.kind_of_mem_mark hm x hx)

theorem enters_request (c : Cause) (s : State) : Enters (s.IsEntryOf who) s (s.request c).2 := by
  have said : Enters (s.IsEntryOf who) s (({ s with
      ensemble := { s.ensemble with shutdown := (s.ensemble.shutdown.request c).2.1 }
      : State }.publishAll (s.ensemble.shutdown.request c).2.2)) := by
    refine .publishAll (.of_eq rfl) fun e he ↦ ⟨rfl, ?_⟩
    unfold Shutdown.request at he
    cases hc : s.ensemble.shutdown.cause with
    | some d =>
      rw [hc] at he
      cases he
    | none =>
      rw [hc] at he
      cases List.mem_singleton.1 he
      trivial
  rw [request_eq]
  exact said.enter ⟨by rw [publishAll_eq], trivial⟩

theorem enters_startCycle (place : Nat) (s : State)
    (may : who = some .host ∨ ∃ j, who = some (.restart j)) :
    Enters (s.IsEntryOf who) s (s.startCycle place) := by
  have put : Enters (s.IsEntryOf who) s
      ({ s with cycles := s.cycles.push { place := place } }.modifyMember place
        fun m ↦ { m with run := some s.cycles.size }) := .of_eq rfl
  exact put.enter ⟨rfl, may⟩

theorem enters_cancelCycle (i : Nat) (s : State)
    (may : who = some .host ∨ ∃ j, who = some (.restart j)) :
    Enters (s.IsEntryOf who) s (s.cancelCycle i) := by
  have put : Enters (s.IsEntryOf who) s
      { s with cycles := s.cycles.modify i fun c ↦ { c with cancelled := true } } := .of_eq rfl
  exact put.enter ⟨rfl, may⟩

theorem enters_endRestart (i : Nat) (s : State) :
    Enters (s.IsEntryOf (some (.restart i))) s (s.endRestart i) := by
  have put : Enters (s.IsEntryOf (some (.restart i))) s (s.setRestart i .finished) := .of_eq rfl
  exact put.enter ⟨rfl, rfl⟩

theorem enters_respawn (i place : Nat) (s : State) :
    Enters (s.IsEntryOf (some (.restart i))) s (s.respawn i place) := by
  unfold respawn
  split
  · exact enters_endRestart i s
  · exact (enters_startCycle place s (.inr ⟨i, rfl⟩)).trans (enters_endRestart i _)

theorem enters_release (i place : Nat) (s : State) :
    Enters (s.IsEntryOf (some (.restart i))) s (s.release i place) := by
  have freed : Enters (s.IsEntryOf (some (.restart i))) s
      (s.setAccount place (s.account place).release) := .of_eq rfl
  have h := release_release i place s
  generalize s.release i place = t at h ⊢
  cases h with
  | abandoned ha => exact freed.trans (enters_endRestart i _)
  | @joins m c here hm hc =>
    have taken : Enters (s.IsEntryOf (some (.restart i))) s
        ((s.setAccount place (s.account place).release).modifyMember place
          fun m ↦ { m with run := none }) := .of_eq rfl
    exact (taken.trans (enters_cancelCycle c _ (.inr ⟨i, rfl⟩))).trans (.of_eq rfl)
  | starts here going hc =>
    exact freed.trans ((enters_startCycle place _ (.inr ⟨i, rfl⟩)).trans (enters_endRestart i _))

theorem enters_onFailed (i : Nat) (resource reason : String) (s : State) :
    Enters (s.IsEntryOf (some (.watcher i))) s (s.onFailed S resource reason).state := by
  have h := heed_onFailed S resource reason s
  generalize s.onFailed S resource reason = r at h ⊢
  cases h with
  | @exhausted place hp here new spent =>
    have set : Enters (s.IsEntryOf (some (.watcher i))) s
        (s.setAccount place { s.account place with handled := s.failures place }) := .of_eq rfl
    have said := set.publish (e := .exhausted resource (s.account place).attempts reason)
      ⟨rfl, ⟨i, rfl⟩⟩
    exact said.trans (enters_request _ _)
  | @restart place delay hp here new idle left hd =>
    have set : Enters (s.IsEntryOf (some (.watcher i))) s
        { s.setAccount place ⟨(s.account place).attempts + 1, true, s.failures place⟩ with
          rolls := s.rolls + 1 } := .of_eq rfl
    have said := set.publish
      (e := .scheduled resource ((s.account place).attempts + 1) delay reason) ⟨rfl, ⟨i, rfl⟩⟩
    have put := said.trans (u := { ({ s.setAccount place
        ⟨(s.account place).attempts + 1, true, s.failures place⟩ with
          rolls := s.rolls + 1 } : State).publish
        (.scheduled resource ((s.account place).attempts + 1) delay reason) with
      restarts := s.restarts.push ⟨place, .fresh delay⟩ }) (.of_eq rfl)
    exact put.enter ⟨rfl, ⟨i, rfl⟩⟩
  | _ => exact .of_eq rfl

theorem enters_confirm (i place : Nat) (s : State) :
    Enters (s.IsEntryOf (some (.confirmation i))) s (s.confirm S place) := by
  unfold confirm tellRecovery
  split
  · have set : Enters (s.IsEntryOf (some (.confirmation i))) s
        (s.setAccount place (s.account place).recover) := .of_eq rfl
    dsimp only
    split
    · exact set.publish ⟨rfl, ⟨i, rfl⟩⟩
    · exact set
  · exact .of_eq rfl

end State

/-- Whatever is entered is entered by whoever may, or somebody outside publishes an event. -/
theorem Change.enters_or (h : Change S admits who s s') :
    State.Enters (s.IsEntryOf who) s s' ∨ ∃ e, admits (.publish e) ∧ s' = s.publish e := by
  cases h with
  | note what own => exact .inl (.enter (.of_eq rfl) ⟨rfl, own.isBy⟩)
  | report e report own =>
    exact .inl (.publish (.of_eq rfl) ⟨rfl, EventKind.isSaidBy_of_isReport report own⟩)
  | request c => exact .inl (State.enters_request c s)
  | mark hm own => exact .inl (State.enters_mark hm)
  | begin hc fresh hm => exact .inl ((State.enters_mark hm).trans (.of_eq rfl))
  | spawn hh hp => exact .inl (State.enters_startCycle _ s (.inl rfl))
  | cancel i => exact .inl (State.enters_cancelCycle i s (.inl rfl))
  | @abort s i hs =>
    have given : State.Enters (s.IsEntryOf (some .host)) s (s.setCycle i .finished) := .of_eq rfl
    exact .inl (given.enter ⟨rfl, rfl⟩)
  | heed resource reason => exact .inl (State.enters_onFailed _ resource reason s)
  | @await i s place =>
    have put : State.Enters (s.IsEntryOf (some (.watcher i))) s
        { s with confirmations := s.confirmations.push { place := place } } := .of_eq rfl
    exact .inl (put.enter ⟨rfl, ⟨i, rfl⟩⟩)
  | release hr waits due => exact .inl (State.enters_release _ _ s)
  | respawn hr gone => exact .inl (State.enters_respawn _ _ s)
  | confirm hc hr hb => exact .inl (State.enters_confirm _ _ s)
  | publish e he => exact .inr ⟨e, he, rfl⟩
  | _ => exact .inl (.of_eq rfl)

/-- **Who enters what.** Nobody else speaks in the name of the supervisor. -/
theorem Change.enters (honest : ∀ e, admits (.publish e) → e.kind.isOwn = false)
    (h : Change S admits who s s') : State.Enters (s.IsEntryOf who) s s' := by
  rcases h.enters_or with own | ⟨e, he, rfl⟩
  · exact own
  · exact .publish (.of_eq rfl) ⟨rfl, EventKind.isSaidBy_of_not_own (honest e he)⟩

/-- Time passes only when nobody does anything. -/
theorem Change.now (h : Change S admits who s s') :
    s'.now = s.now ∨ who = none ∧ s.now < s'.now := by
  cases h with
  | pass moment later => exact .inr ⟨rfl, later⟩
  | request c => rw [State.request_frame]; exact .inl rfl
  | mark hm own => rw [State.mark_frame hm]; exact .inl rfl
  | begin hc fresh hm => rw [State.mark_frame hm]; exact .inl rfl
  | heed resource reason => rw [State.onFailed_frame]; exact .inl rfl
  | release hr waits due => rw [State.release_frame]; exact .inl rfl
  | respawn hr gone => rw [State.respawn_frame]; exact .inl rfl
  | confirm hc hr hb => rw [State.confirm_frame]; exact .inl rfl
  | _ => exact .inl rfl

theorem Change.le_now (h : Change S admits who s s') : s.now ≤ s'.now := by
  rcases h.now with same | ⟨-, later⟩
  · exact Nat.le_of_eq same.symm
  · exact Nat.le_of_lt later

/-- No time passes while a task takes a step. -/
theorem Changes.now {t : Task} (h : Changes S admits (some t) s s') : s'.now = s.now := by
  induction h with
  | refl => rfl
  | tail _ last ih =>
    rcases last.now with same | ⟨nobody, -⟩
    · exact same.trans ih
    · cases nobody

/-- No time passes while something is done from outside. -/
theorem State.now_undergo (d : Deed) (s : State) : (s.undergo d).now = s.now := by
  cases d with
  | request c =>
    show (s.request c).2.now = s.now
    rw [State.request_frame]
  | mark place m =>
    show (s.tryMark place m).now = s.now
    unfold State.tryMark
    split
    · rename_i s' hm
      rw [State.mark_frame hm]
    · rfl
  | call =>
    show (if s.isIdle then s.startRun else s).now = s.now
    split <;> rfl
  | abandon =>
    show (if s.isIdle then s else s.abandonRun).now = s.now
    split <;> rfl
  | deafen why =>
    obtain ⟨deaf, same⟩ := State.exists_undergo_deafen why s
    rw [same]
  | signal | publish e => rfl

end Changes

end Supervision
