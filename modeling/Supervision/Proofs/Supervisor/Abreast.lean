import Supervision.Proofs.Supervisor.Feeding
import Supervision.Proofs.Supervisor.Grounds

/-!
# A watcher that misses nothing

As long as the watcher of the first run has missed no event (`State.IsAbreast`), it learns of a
failure before the resource is started again: while the news of it is still to be received, the
resource stays down, since only a watcher puts a restart on the calendar. So no resource has news of
two failures on its way to the watcher, and the news is that of its latest failure
(`State.IsUpToDate`).

* `State.CycleStep.isUpToDate`, `State.KeepsUp.stepWatcher` — a failure is told of, and acted on.
* `Step.keepsUp` — every step of the first run keeps the watcher up to date.
-/

namespace Supervision

/-! ### Who tells of failures -/

section Changes

variable {S : Setup} {admits : Deed → Prop} {who : Option Task} {s s' : State}

/-- Nobody but a cycle tells that somebody has failed. -/
theorem Changes.tells_no_failure (h : Changes S admits who s s')
    (unforged : Deed.IsUnforged admits) (unmarked : ∀ p m, ¬ admits (.mark p m))
    (other : ∀ i, who ≠ some (.cycle i)) :
    State.Tells (fun e ↦ ∀ name, ¬ e.Tells name .failed) s s' :=
  (h.tells_no_move unmarked other).mono fun e such name tells ↦
    (unforged e name (such tells.1)).1 tells

end Changes

namespace State

variable {S : Setup} {i p : Nat} {c : Cycle} {l l' : Lifecycle} {s t : State}

/-- News that somebody has failed was on the bus before. -/
theorem Tells.sent_before (h : Tells (fun e ↦ ∀ name, ¬ e.Tells name .failed) s t) {k : Nat}
    {e : Event} {name : String} (he : t.ensemble.bus.sent[k]? = some e)
    (tells : e.Tells name .failed) : s.ensemble.bus.sent[k]? = some e := by
  obtain ⟨more, -, sent, such⟩ := h
  rw [sent] at he
  by_cases old : k < s.ensemble.bus.sent.size
  · rwa [Array.getElem?_append_left old] at he
  · rw [Array.getElem?_append_right (Nat.le_of_not_lt old), List.getElem?_toArray] at he
    exact absurd tells (such e (List.mem_of_getElem? he) name)

/-- What a step of a cycle tells: of no failure, or at the end of a failure of its resource. -/
theorem MarksOnce.tells_or (h : MarksOnce p l s t) :
    (∀ (k : Nat) (e : Event) (name : String), t.ensemble.bus.sent[k]? = some e →
      e.Tells name .failed → s.ensemble.bus.sent[k]? = some e) ∨
    ∃ f l' size, t.lifecycle? p = some l' ∧ l'.name = l.name ∧ l'.lastFailure = some f ∧
      l'.failures = l.failures + 1 ∧ s.ensemble.bus.size ≤ size ∧
      ∀ (k : Nat) (e : Event) (name : String), t.ensemble.bus.sent[k]? = some e →
        e.Tells name .failed → s.ensemble.bus.sent[k]? = some e ∨
          k = size ∧ e = .transition ⟨l.name, l.status, .failed, some f⟩ := by
  have split {more : List Event} (sent : t.ensemble.bus.sent
      = s.ensemble.bus.sent ++ more.toArray) {k : Nat} {e : Event}
      (he : t.ensemble.bus.sent[k]? = some e) : s.ensemble.bus.sent[k]? = some e ∨
        s.ensemble.bus.size ≤ k ∧ more[k - s.ensemble.bus.size]? = some e := by
    rw [sent] at he
    by_cases old : k < s.ensemble.bus.sent.size
    · exact .inl (by rwa [Array.getElem?_append_left old] at he)
    · rw [Array.getElem?_append_right (Nat.le_of_not_lt old), List.getElem?_toArray] at he
      exact .inr ⟨Nat.le_of_not_lt old, he⟩
  cases h with
  | same hl more quiet sent =>
    refine .inl fun k e name he tells ↦ (split sent he).resolve_right fun later ↦ ?_
    exact quiet e (List.mem_of_getElem? later.2) tells.1
  | @mark m l' published hm hl' sent =>
    by_cases fails : m.target? = some .failed
    · obtain ⟨f, hf⟩ := Lifecycle.exists_failure_of_mark fails rfl
      rcases Lifecycle.mark_eq_ok hm with ⟨none_, -⟩ | ⟨target, ht, moves⟩
      · rw [fails] at none_
        cases none_
      · cases fails.symm.trans ht
        rw [Lifecycle.mark_eq_move fails, hf] at hm
        obtain ⟨quiet, such, whole⟩ := Lifecycle.published_of_move hm
        refine .inr ⟨f, l', s.ensemble.bus.size + quiet.length, hl', moves.name, ?_, ?_,
          Nat.le_add_right _ _, fun k e name he tells ↦ (split sent he).imp_right ?_⟩
        · rw [moves.lastFailure, hf]
          rfl
        · rw [moves.failures, if_pos rfl]
        · rintro ⟨past, new⟩
          rw [whole] at new
          rcases Nat.lt_trichotomy (k - s.ensemble.bus.size) quiet.length with before | at_ | after
          · rw [List.getElem?_append_left before] at new
            exact absurd tells.1 (such e (List.mem_of_getElem? new))
          · rw [at_, List.getElem?_append_right (Nat.le_refl _), Nat.sub_self] at new
            cases new
            exact ⟨by omega, rfl⟩
          · rw [List.getElem?_eq_none (by simp; omega)] at new
            cases new
    · refine .inl fun k e name he tells ↦ (split sent he).resolve_right fun later ↦ ?_
      obtain ⟨x, hx, rfl⟩ := List.mem_map.1 (List.mem_of_getElem? later.2)
      obtain ⟨target, ht, same⟩ := Lifecycle.eq_transition_of_mark hm hx tells.1
      obtain ⟨-, m', move, -, failed⟩ := tells
      rw [same] at move
      cases move
      exact fails (failed ▸ ht)

/-! ### News on its way -/

/-- At a position from `next` on there is news that the resource of that name has failed. -/
def IsPending (next k : Nat) (name : String) (s : State) : Prop :=
  next ≤ k ∧ ∃ e, s.ensemble.bus.sent[k]? = some e ∧ e.Tells name .failed

/-- Of the resource in place `p`, which stands as `l`, there is news of one failure at most from
`next` on; then it is down, and the news is that of its latest failure. -/
structure IsUpToDateOn (next p : Nat) (l : Lifecycle) (s : State) : Prop where
  one : ∀ k k', s.IsPending next k l.name → s.IsPending next k' l.name → k = k'
  down : ∀ k, s.IsPending next k l.name → s.IsDown p l
  latest : ∀ (k : Nat) (e : Event), next ≤ k → s.ensemble.bus.sent[k]? = some e →
    e.Tells l.name .failed → ∃ m, e = .transition m ∧ l.lastFailure = m.failure

/-- Who reads the bus from a position on is up to date on every resource. -/
def IsUpToDate (next : Nat) (s : State) : Prop :=
  ∀ p l, s.lifecycle? p = some l → s.IsUpToDateOn next p l

variable {next next' : Nat}

theorem IsUpToDate.isLatest (h : s.IsUpToDate next) : s.IsLatest next :=
  fun e he p l hl tells ↦ (h p l hl).latest next e (Nat.le_refl _) he tells

theorem isUpToDateOn_of_none (none_ : ∀ k, ¬ s.IsPending next k l.name) :
    s.IsUpToDateOn next p l where
  one k _ hk := absurd hk (none_ k)
  down k hk := absurd hk (none_ k)
  latest k e hk he tells := absurd ⟨hk, e, he, tells⟩ (none_ k)

/-- Where no news has come of a resource, and it has stayed down if there is any on its way, nothing
has changed. -/
theorem IsUpToDateOn.of_silent (h : s.IsUpToDate next) (le : next ≤ next')
    (before : ∃ k, s.lifecycle? p = some k ∧ l.name = k.name)
    (news : ∀ (k : Nat) (e : Event), next' ≤ k → t.ensemble.bus.sent[k]? = some e →
      e.Tells l.name .failed → s.ensemble.bus.sent[k]? = some e)
    (down : ∀ k j, t.IsPending next' j l.name → s.IsDown p k → t.IsDown p k)
    (hl : t.lifecycle? p = some l) : t.IsUpToDateOn next' p l := by
  obtain ⟨k, hk, name⟩ := before
  have old {j : Nat} (pending : t.IsPending next' j l.name) : s.IsPending next j k.name := by
    obtain ⟨past, e, he, tells⟩ := pending
    exact ⟨Nat.le_trans le past, e, news j e past he tells, name ▸ tells⟩
  have stays {j : Nat} (pending : t.IsPending next' j l.name) : k = l := by
    have still := down k j pending ((h p k hk).down j (old pending))
    exact Option.some.inj (still.here.symm.trans hl)
  refine ⟨fun j j' hj hj' ↦ (h p k hk).one j j' (old hj) (old hj'), fun j hj ↦ ?_,
    fun j e past he tells ↦ ?_⟩
  · rw [← stays hj]
    exact down k j hj ((h p k hk).down j (old hj))
  · have same := stays ⟨past, e, he, tells⟩
    subst same
    exact (h p k hk).latest j e (Nat.le_trans le past) (news j e past he tells) tells

theorem Fits.lifecycle_before (h : s.Fits S) (h' : t.Fits S) (hl : t.lifecycle? p = some l) :
    ∃ k, s.lifecycle? p = some k ∧ l.name = k.name := by
  have names := (h'.names p).trans (h.names p).symm
  rw [hl] at names
  obtain ⟨k, hk, name⟩ := Option.map_eq_some_iff.1 names.symm
  exact ⟨k, hk, name.symm⟩

/-- **A cycle tells of a failure**: its resource is down from then on, and there was no news of it
before. -/
theorem CycleStep.isUpToDate (h : CycleStep S i c s t) (meek : S.IsMeek) (distinct : S.names.Nodup)
    (hc : s.cycles[i]? = some c) (hf : s.Fits S) (steady : s.IsSteady) (ht : t.Fits S)
    (restarts : t.restarts = s.restarts) (turn : t.Turn c.place)
    (handled : (t.account c.place).handled ≤ s.failures c.place) (hs : s.IsUpToDate next) :
    t.IsUpToDate next := by
  obtain ⟨l, hl⟩ := hf.exists_lifecycle (hf.cycles i c hc)
  have stays {p : Nat} {k : Lifecycle} (down : s.IsDown p k) : t.IsDown p k :=
    h.isDown meek hc hf steady restarts down
  intro p k hk
  rcases (h.marksOnce hl).tells_or with
    silent | ⟨f, l', size, hl', name, last, failures, past, news⟩
  · exact .of_silent hs (Nat.le_refl _) (hf.lifecycle_before ht hk)
      (fun j e _ he tells ↦ silent j e _ he tells) (fun _ _ _ ↦ stays) hk
  · by_cases own : p = c.place
    · subst own
      cases hk.symm.trans hl'
      have none_ (j : Nat) : ¬ s.IsPending next j l.name := by
        intro pending
        have still := stays ((hs _ l hl).down j pending)
        cases still.here.symm.trans hl'
        omega
      have only {j : Nat} {e : Event} (le : next ≤ j) (he : t.ensemble.bus.sent[j]? = some e)
          (tells : e.Tells k.name .failed) :
          j = size ∧ e = .transition ⟨l.name, l.status, .failed, some f⟩ :=
        (news j e _ he tells).resolve_left fun old ↦ none_ j ⟨le, e, old, name ▸ tells⟩
      refine ⟨?_, fun j pending ↦ ?_, fun j e le he tells ↦ ⟨_, (only le he tells).2, last⟩⟩
      · rintro j j' ⟨le, e, he, tells⟩ ⟨le', e', he', tells'⟩
        exact (only le he tells).1.trans (only le' he' tells').1.symm
      · refine (turn.isDown (Nat.lt_of_le_of_lt handled ?_) hk).2
        rw [failures_eq hl, failures_eq hk, failures]
        exact Nat.lt_succ_self _
    · refine .of_silent hs (Nat.le_refl _) (hf.lifecycle_before ht hk) (fun j e _ he tells ↦ ?_)
        (fun _ _ _ ↦ stays) hk
      refine (news j e _ he tells).resolve_right ?_
      rintro ⟨-, rfl⟩
      obtain ⟨-, m, move, resource, -⟩ := tells
      cases move
      have place := ht.place?_name distinct hk
      rw [← resource, hf.place?_name distinct hl] at place
      exact own (Option.some.inj place).symm

/-! ### The watcher -/

/-- Acting on the news of a failure puts a restart of that resource on the calendar, if any. -/
theorem isRestarting_onFailed {resource reason : String} {q j : Nat}
    (h : (s.onFailed S resource reason).state.IsRestarting q j) :
    s.IsRestarting q j ∨ S.place? resource = some q := by
  have heed := heed_onFailed S resource reason s
  generalize s.onFailed S resource reason = r at h heed
  cases heed with
  | ignored | broken | old | pending => exact .inl h
  | exhausted hp here new spent =>
    rw [request_frame] at h
    exact .inl h
  | @restart place delay hp here new idle left hd =>
    obtain ⟨r, hr, rfl, waits⟩ := h
    rcases startRestart_cases hr with old | ⟨-, rfl⟩
    · exact .inl ⟨r, old, rfl, waits⟩
    · exact .inr hp

theorem isRestarting_onEvent {e : Event} {q j : Nat}
    (h : (s.onEvent S e).state.IsRestarting q j) :
    s.IsRestarting q j ∨ ∃ name, e.Tells name .failed ∧ S.place? name = some q := by
  unfold onEvent at h
  split at h
  · rename_i kind
    split at h
    · exact .inl h
    · rename_i m move
      dsimp only at h
      split at h
      · rename_i target
        exact (isRestarting_onFailed h).imp_right fun place ↦
          ⟨m.resource, ⟨kind, m, move, rfl, target⟩, place⟩
      · unfold onRunning at h
        split at h
        · exact .inl h
        · exact .inl h
      · unfold escalate at h
        split at h
        · exact .inl h
        · rw [request_frame] at h
          exact .inl h
      · exact .inl h
  · exact .inl h

theorem frame_onEvent (e : Event) (s : State) :
    (s.onEvent S e).state.cycles = s.cycles ∧ (s.onEvent S e).state.watchers = s.watchers := by
  unfold onEvent
  split
  · split
    · exact ⟨rfl, rfl⟩
    · dsimp only
      split
      · rw [onFailed_frame]
        exact ⟨rfl, rfl⟩
      · unfold onRunning
        split <;> exact ⟨rfl, rfl⟩
      · unfold escalate
        split
        · exact ⟨rfl, rfl⟩
        · rw [request_frame]
          exact ⟨rfl, rfl⟩
      · exact ⟨rfl, rfl⟩
  · exact ⟨rfl, rfl⟩

/-- A watcher that acts on an event is up to date on what is left. -/
theorem isUpToDate_onEvent (hf : s.Fits S) {e : Event}
    (he : s.ensemble.bus.sent[next]? = some e) (hs : s.IsUpToDate next) :
    (s.onEvent S e).state.IsUpToDate (next + 1) := by
  have chain : Changes S (fun _ ↦ False) (some (.watcher 0)) s (s.onEvent S e).state :=
    changes_onEvent 0 e s
  have tells := chain.tells_no_failure (fun _ _ ↦ False.elim) (fun _ _ ↦ id) nofun
  have lifecycle (q : Nat) : (s.onEvent S e).state.lifecycle? q = s.lifecycle? q :=
    chain.lifecycle?_of_other (fun _ _ ↦ id) nofun q
  intro p l hl
  rw [lifecycle] at hl
  refine .of_silent hs (Nat.le_succ _) ⟨l, hl, rfl⟩ (fun k x _ hx told ↦ tells.sent_before hx told)
    (fun k j pending down ↦ ?_) ((lifecycle p).trans hl)
  cases hl.symm.trans down.here
  refine down.congr (lifecycle p) (fun i going ↦ ?_) fun j' waits ↦ ?_
  · rw [IsGoing, (frame_onEvent e s).1] at going
    exact going
  · refine (isRestarting_onEvent waits).resolve_right ?_
    rintro ⟨name, told, place⟩
    -- That would be news of the same resource, of which there is more.
    obtain ⟨past, x, hx, told'⟩ := pending
    rw [← hf.name_of_place? hl place] at told
    have same := (hs p l hl).one next j ⟨Nat.le_refl _, e, he, told⟩
      ⟨Nat.le_of_succ_le past, x, tells.sent_before hx told', told'⟩
    omega

/-- No watcher has missed anything, as long as the shutdown has not begun. -/
def IsAbreast (s : State) : Prop :=
  s.isRequested = false → ∀ (i : Nat) (w : Watcher), s.watchers[i]? = some w → w.isOver = false →
    ∀ count next, s.ensemble.bus.receive w.next ≠ .missed count next

/-- There is one watcher at most, and none before the run has begun; and until the shutdown begins
it is up to date. -/
structure KeepsUp (s : State) : Prop where
  one : s.watchers.size ≤ 1
  first : s.host = .fresh → s.watchers = #[]
  upToDate : s.isRequested = false → ∀ (i : Nat) (w : Watcher), s.watchers[i]? = some w →
    w.isOver = false → s.IsUpToDate w.next

/-- A run begins with a watcher that has nothing left to learn. -/
theorem KeepsUp.beginRun (hs : s.KeepsUp) (fresh : s.host = .fresh) : (s.beginRun S).KeepsUp := by
  obtain ⟨ensemble, watchers⟩ := beginRun_eq S s
  rw [hs.first fresh] at watchers
  refine ⟨by rw [watchers]; exact Nat.le_refl _, nofun, fun _ i w hw _ ↦ ?_⟩
  have at_ : w.next = s.ensemble.bus.size := by
    rw [watchers] at hw
    match i with
    | 0 => cases hw; rfl
    | i + 1 => cases hw
  refine fun p l _ ↦ isUpToDateOn_of_none ?_
  rintro k ⟨le, e, he, -⟩
  rw [ensemble] at he
  rw [at_] at le
  exact absurd (Array.getElem?_eq_some_iff.1 he).1 (Nat.not_lt_of_le le)

/-- The one watcher has moved on, or is over. -/
theorem KeepsUp.of_moved (hs : s.KeepsUp) {w : Watcher} {v : Watcher} (hw : s.watchers[i]? = some v)
    (watchers : t.watchers = s.watchers.setIfInBounds i w)
    (begun : t.host = .fresh → s.host = .fresh)
    (upToDate : w.isOver = false → t.IsUpToDate w.next) : t.KeepsUp where
  one := by
    rw [watchers, Array.size_setIfInBounds]
    exact hs.one
  first fresh := by
    rw [hs.first (begun fresh)] at hw
    cases hw
  upToDate _ k x hx going := by
    have hi : i < s.watchers.size := (Array.getElem?_eq_some_iff.1 hw).1
    have hk : k < t.watchers.size := (Array.getElem?_eq_some_iff.1 hx).1
    rw [watchers, Array.size_setIfInBounds] at hk
    have same : k = i := by
      have one := hs.one
      omega
    subst same
    rw [watchers, Array.getElem?_setIfInBounds_self_of_lt hi] at hx
    cases hx
    exact upToDate going

/-- **A watcher that misses nothing stays up to date.** -/
theorem KeepsUp.stepWatcher (hs : s.KeepsUp) (hf : s.Fits S) (abreast : s.IsAbreast)
    (begun : (s.stepWatcher S i).host = .fresh → s.host = .fresh) :
    (s.stepWatcher S i).KeepsUp := by
  have step := watches_stepWatcher S i s
  generalize s.stepWatcher S i = t at step begun ⊢
  cases step with
  | rests => exact hs
  | @ends w hw asked => exact hs.of_moved (w := { w with isOver := true }) hw rfl begun nofun
  | looks hw going here missed => exact absurd missed (abreast here i _ hw going _ _)
  | @acts w e hw going here he =>
    let w' : Watcher := { w with next := w.next + 1 }
    have before : (s.setWatcher i w').IsUpToDate w.next := fun p l hl ↦
      .of_silent (hs.upToDate here i w hw going) (Nat.le_refl _) ⟨l, hl, rfl⟩
        (fun _ _ _ he _ ↦ he) (fun _ _ _ down ↦ down.congr rfl (fun _ ↦ id) fun _ ↦ id) hl
    have fits : (s.setWatcher i w').Fits S :=
      (Change.turn w' : Change S (fun _ ↦ False) (some (.watcher i)) s _).fits hf
    have upToDate := isUpToDate_onEvent fits he before
    have watchers := (frame_onEvent (S := S) e (s.setWatcher i w')).2
    unfold watcherAfter at begun ⊢
    split at begun
    · exact hs.of_moved hw watchers begun fun _ ↦ upToDate
    · refine hs.of_moved (w := { w' with isOver := true }) hw ?_ begun nofun
      show Array.setIfInBounds _ i _ = _
      rw [watchers]
      exact Array.setIfInBounds_setIfInBounds _

end State

section Run

variable {S : Setup} {admits : Deed → Prop} {who : Option Task} {s s' : State} {i p : Nat}

/-- Nobody moves a watcher on but itself, and the host starts another at the end of the bus. -/
theorem Change.watchers (h : Change S admits who s s') (other : ∀ i, who ≠ some (.watcher i)) :
    s'.watchers = s.watchers ∨ who = some .host ∧ s.host = .fresh ∧
      s'.watchers = s.watchers.push { next := s.ensemble.bus.size } := by
  cases h with
  | request c => exact .inl (by rw [State.request_frame])
  | mark hm own => exact .inl (by rw [State.mark_frame hm])
  | begin hc fresh hm => exact .inl (by rw [State.mark_frame hm]; rfl)
  | watch fresh => exact .inr ⟨rfl, fresh, rfl⟩
  | turn => exact absurd rfl (other _)
  | heed => exact absurd rfl (other _)
  | release hr waits due => exact .inl (by rw [State.release_frame])
  | respawn hr gone => exact .inl (by rw [State.respawn_frame])
  | confirm hc hr hb => exact .inl (by rw [State.confirm_frame])
  | _ => exact .inl rfl

theorem Change.watchers_of_other (h : Change S admits who s s')
    (begun : who = some .host → s.host ≠ .fresh) (other : ∀ i, who ≠ some (.watcher i)) :
    s'.watchers = s.watchers :=
  (h.watchers other).resolve_right fun ⟨own, fresh, _⟩ ↦ begun own fresh

theorem Changes.watchers_of_other (h : Changes S admits who s s')
    (begun : who = some .host → s.host ≠ .fresh) (other : ∀ i, who ≠ some (.watcher i)) :
    s'.watchers = s.watchers := by
  have : (who = some .host → s'.host ≠ .fresh) ∧ s'.watchers = s.watchers := by
    induction h with
    | refl => exact ⟨begun, rfl⟩
    | tail _ last ih =>
      exact ⟨last.begun ih.1, (last.watchers_of_other ih.1 other).trans ih.2⟩
  exact this.2

theorem Changes.isRequested_before (h : Changes S admits who s s')
    (here : s'.isRequested = false) : s.isRequested = false := by
  induction h with
  | refl => exact here
  | tail _ last ih =>
    refine ih (Bool.eq_false_iff.2 fun asked ↦ ?_)
    rw [last.isRequested asked] at here
    cases here

/-- Others leave the watcher up to date. -/
theorem Changes.keepsUp (h : Changes S admits who s s') (unforged : Deed.IsUnforged admits)
    (unmarked : ∀ p m, ¬ admits (.mark p m)) (cycles : ∀ i, who ≠ some (.cycle i))
    (watchers : ∀ i, who ≠ some (.watcher i)) (begun : who = some .host → s.host ≠ .fresh)
    (fresh : s'.host = .fresh → s.host = .fresh) (ho : s.IsOrderly) (hf : s.Fits S)
    (hs : s.KeepsUp) : s'.KeepsUp := by
  have same : s'.watchers = s.watchers := h.watchers_of_other begun watchers
  have tells := h.tells_no_failure unforged unmarked cycles
  refine ⟨same ▸ hs.one, fun host ↦ same.trans (hs.first (fresh host)), fun here i w hw going ↦ ?_⟩
  intro p l hl
  have hl' := (h.lifecycle?_of_other unmarked cycles p).symm.trans hl
  exact .of_silent (hs.upToDate (h.isRequested_before here) i w (same ▸ hw) going) (Nat.le_refl _)
    ⟨l, hl', rfl⟩ (fun k e _ he told ↦ tells.sent_before he told)
    (fun k j _ down ↦ h.isDown unmarked cycles begun ho hf watchers down) hl

/-- **Every step of the first run keeps the watcher up to date that has missed nothing.** -/
theorem Step.keepsUp (h : Step S admits s s') (alone : ¬ admits .call) (meek : S.IsMeek)
    (distinct : S.names.Nodup) (unmarked : ∀ p m, ¬ admits (.mark p m))
    (unforged : Deed.IsUnforged admits) (sound : s.IsSound S) (steady : s.IsSteady)
    (inTurn : s.IsInTurn) (abreast : s.IsAbreast) (hs : s.KeepsUp) : s'.KeepsUp := by
  have ho := sound.orderly
  have hf := sound.fits
  have fresh (host : s'.host = .fresh) : s.host = .fresh :=
    Classical.byContradiction fun begun ↦ h.hasBegun alone ho begun host
  have deeds : Deed.IsMeek admits := fun p m marked ↦ absurd marked (unmarked p m)
  rcases h.turn_or_changes ho (fun t ↦ t = .host ∨ (∃ i, t = .cycle i) ∨ ∃ i, t = .watcher i) with
    ⟨_, rfl | ⟨i, rfl⟩ | ⟨i, rfl⟩, rfl⟩ | ⟨who, others, chain⟩
  · by_cases host : s.host = .fresh
    · have begins : s.step S .host = s.beginRun S := by
        show s.stepHost S = _
        rw [State.stepHost, host]
      rw [begins]
      exact hs.beginRun host
    · have chain : Changes S admits (some .host) s (s.step S .host) := State.changes_step .host s ho
      exact chain.keepsUp unforged unmarked nofun nofun (fun _ ↦ host) fresh ho hf hs
  · cases hc : s.cycles[i]? with
    | none =>
      rw [State.step_cycle_of_none hc]
      exact hs
    | some c =>
      have chain : Changes S admits (some (.cycle i)) s (s.step S (.cycle i)) :=
        State.changes_step (.cycle i) s ho
      have same := chain.watchers_of_other nofun nofun
      obtain ⟨restarts, account⟩ := chain.of_cycle c.place
      have inTurn' := h.isInTurn alone meek deeds ho hf steady inTurn
      refine ⟨same ▸ hs.one, fun host ↦ same.trans (hs.first (fresh host)),
        fun here k w hw going ↦ ?_⟩
      refine (State.cycleStep_step hc).isUpToDate meek distinct hc hf steady (h.isSound sound).fits
        restarts (inTurn'.turn _) ?_ (hs.upToDate (chain.isRequested_before here) k w (same ▸ hw)
          going)
      rw [account]
      exact sound.balanced.handled _
  · exact hs.stepWatcher hf abreast fresh
  · exact chain.keepsUp unforged unmarked (fun i ↦ others _ (.inr (.inl ⟨i, rfl⟩)))
      (fun i ↦ others _ (.inr (.inr ⟨i, rfl⟩))) (fun own ↦ absurd own (others _ (.inl rfl))) fresh
      ho hf hs

/-! ### Room for everything -/

/-- A run in which no watcher misses an event. -/
def IsAttentiveRun (S : Setup) (admits : Deed → Prop) : State → State → Prop :=
  Relation.ReflTransGen fun u v ↦ u.IsAbreast ∧ Step S admits u v

end Run

end Supervision
