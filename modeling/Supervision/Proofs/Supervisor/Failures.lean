import Supervision.Proofs.Supervisor.Attention
import Supervision.Proofs.Supervisor.FirstRun
import Supervision.Proofs.Supervisor.News

/-!
# What is known of a failure

A resource that has failed or crashed keeps the failure as its latest, and the news of it is on the
bus (`State.IsOnRecord`); and whoever tells on the bus of a failure tells its detail
(`State.IsFrank`). That holds whatever happens, as long as nobody outside makes such news up
(`Change.isInformed`).

A cycle marks its resource at most once in a step (`State.CycleStep.marksOnce`). So where hooks
leave the status alone, a mark that makes the resource fail or crash is the last that a cycle makes,
and the reason why the resource is not ready stays that of its failure (`Step.tellsWhy`).
-/

namespace Supervision

/-- It has failed or crashed. -/
def Status.isFailure : Status → Bool
  | .failed | .crashed => true
  | _ => false

namespace Lifecycle

variable {m : Mark} {c c' : Lifecycle} {published : List Publication} {target : Status}

/-- After a failure, it is the latest one, and its message is why the resource is not ready. -/
def TellsWhy (c : Lifecycle) : Prop :=
  c.status.isFailure = true → ∃ f, c.lastFailure = some f ∧ c.readiness = .down f.message

theorem readiness_of_move {f : Failure} (h : c.move target (some f) = .ok (c', published)) :
    c'.readiness = .down f.message := by
  unfold move at h
  split at h
  · cases h
    show ((c.moved target (some f)).setReadiness (.down f.message)).1.readiness = _
    unfold setReadiness
    split
    · assumption
    · rfl
  · cases h

/-- Who moves to a failure has it from the mark. -/
theorem exists_failure_of_mark (ht : m.target? = some target) (failing : target.isFailure = true) :
    ∃ f, m.failure? = some f := by
  cases m with
  | failed f => exact ⟨f, rfl⟩
  | crashed f => exact ⟨f, rfl⟩
  | _ => cases ht <;> cases failing

theorem tellsWhy_of_mark (h : c.mark m = .ok (c', published)) (ht : m.target? = some target) :
    c'.TellsWhy := by
  intro failing
  rw [mark_eq_move ht] at h
  have moves := movesTo_of_move h
  rw [moves.status] at failing
  obtain ⟨f, hf⟩ := exists_failure_of_mark ht failing
  rw [hf] at h
  refine ⟨f, ?_, readiness_of_move h⟩
  rw [moves.lastFailure, hf]
  rfl

/-- The news of a move is the last that it tells, and no other news of a move is before it. -/
theorem published_of_move {failure : Option Failure}
    (h : c.move target failure = .ok (c', published)) :
    ∃ quiet : List Event, (∀ e ∈ quiet, e.kind ≠ .transition) ∧ published.map (·.event)
      = quiet ++ [.transition ⟨c.name, c.status, target, failure⟩] := by
  unfold move at h
  split at h
  · cases h
    refine ⟨_, fun e he ↦ ?_, List.map_append⟩
    obtain ⟨x, hx, rfl⟩ := List.mem_map.1 he
    split at hx
    · rw [kind_of_mem_setReadiness_eq hx]
      nofun
    · cases hx
  · cases h

end Lifecycle

/-! ### The record of failures -/

namespace State

variable {S : Setup} {s t : State} {p : Nat}

/-- Whoever has failed or crashed has the failure as the latest, and the news of it is on the
bus. -/
def IsOnRecord (s : State) : Prop :=
  ∀ p l, s.lifecycle? p = some l → l.status.isFailure = true →
    ∃ source f, l.lastFailure = some f ∧
      .transition ⟨l.name, source, l.status, some f⟩ ∈ s.ensemble.bus.sent

/-- Who tells on the bus of a failure tells the detail. -/
def IsFrank (s : State) : Prop :=
  ∀ e ∈ s.ensemble.bus.sent, ∀ name, e.Tells name .failed →
    ∃ m f, e = .transition m ∧ m.failure = some f

/-- What is on the bus stays there. -/
theorem Grows.mem_sent (h : Grows s t) {e : Event} (he : e ∈ s.ensemble.bus.sent) :
    e ∈ t.ensemble.bus.sent := by
  obtain ⟨more, sent⟩ := h.bus
  rw [sent]
  exact Array.mem_append_left _ he

/-- What is known of failures, and of restarts. -/
structure IsInformed (S : Setup) (s : State) : Prop where
  sound : s.IsSound S
  record : s.IsOnRecord
  honest : s.IsHonest
  frank : s.IsFrank
  budget : ∀ p, (s.account p).attempts ≤ S.settings.maxRestarts

end State

section Changes

variable {S : Setup} {admits : Deed → Prop} {who : Option Task} {s s' : State} {p : Nat}

/-- Nobody outside tells that somebody failed or crashed. -/
def Deed.IsUnforged (admits : Deed → Prop) : Prop :=
  ∀ e name, admits (.publish e) → ¬ e.Tells name .failed ∧ ¬ e.Tells name .crashed

theorem Event.crash?_eq_none {e : Event} (other : ∀ name, ¬ e.Tells name .crashed) :
    Recorder.crash? e = none := by
  unfold Recorder.crash?
  split
  · rename_i kind
    cases move : e.move with
    | none => rfl
    | some m => exact if_neg fun target ↦ other m.resource ⟨kind, m, move, rfl, target⟩
  · rfl

theorem Deed.IsUnforged.crash?_eq_none (unforged : Deed.IsUnforged admits) (e : Event)
    (he : admits (.publish e)) : Recorder.crash? e = none :=
  Event.crash?_eq_none fun name ↦ (unforged e name he).2

theorem Change.isOnRecord (h : Change S admits who s s') (hs : s.IsOnRecord) :
    s'.IsOnRecord := by
  have old : ∀ {e : Event}, e ∈ s.ensemble.bus.sent → e ∈ s'.ensemble.bus.sent := h.grows.mem_sent
  intro p l' hl' failing
  unfold State.lifecycle? at hl'
  rcases h.lifecycles with same | ⟨place, m, l, l₁, published, hl, hm, members, sent, -⟩
  · rw [same] at hl'
    obtain ⟨source, f, last, news⟩ := hs p l' hl' failing
    exact ⟨source, f, last, old news⟩
  · rw [members, Array.getElem?_setIfInBounds] at hl'
    split at hl'
    · rename_i here
      subst here
      split at hl'
      · cases hl'
        rcases Lifecycle.mark_eq_ok hm with ⟨none_, name, status, -⟩ | ⟨target, ht, moves⟩
        · obtain ⟨source, f, last, news⟩ := hs place l hl (status ▸ failing)
          refine ⟨source, f, (Lifecycle.lastFailure_of_mark hm none_).trans last, ?_⟩
          rw [name, status]
          exact old news
        · rw [moves.status] at failing
          obtain ⟨f, hf⟩ := Lifecycle.exists_failure_of_mark ht failing
          have news := List.mem_map_of_mem (f := (·.event)) moves.news
          refine ⟨l.status, f, by rw [moves.lastFailure, hf]; rfl, ?_⟩
          rw [sent, moves.name, moves.status, ← hf]
          exact Array.mem_append_right _ (List.mem_toArray.2 news)
      · cases hl'
    · obtain ⟨source, f, last, news⟩ := hs p l' hl' failing
      exact ⟨source, f, last, old news⟩

theorem Change.isFrank (unforged : Deed.IsUnforged admits) (h : Change S admits who s s')
    (hs : s.IsFrank) : s'.IsFrank := by
  obtain ⟨more, -, sent, such⟩ := h.tells
  intro e mem name tells
  rw [sent] at mem
  rcases Array.mem_append.1 mem with old | new
  · exact hs e old name tells
  · obtain ⟨kind, m, move, -, failed⟩ := tells
    rcases such e (List.mem_toArray.1 new) kind with
      forged | ⟨q, mark, l, l', published, -, marked, -, mem⟩
    · exact absurd ⟨kind, m, move, rfl, failed⟩ (unforged e m.resource forged).1
    · obtain ⟨x, hx, rfl⟩ := List.mem_map.1 mem
      obtain ⟨target, ht, same⟩ := Lifecycle.eq_transition_of_mark marked hx kind
      rw [same] at move
      cases move
      have failing : target.isFailure = true := congrArg Status.isFailure failed
      obtain ⟨f, hf⟩ := Lifecycle.exists_failure_of_mark ht failing
      exact ⟨_, f, same, hf⟩

theorem Change.attempts_le (h : Change S admits who s s') (hf : s.Fits S)
    (within : (s.account p).attempts ≤ S.settings.maxRestarts) :
    (s'.account p).attempts ≤ S.settings.maxRestarts := by
  cases h.account hf p with
  | same e => rw [e]; exact within
  | release hr waits _ e => rw [e]; exact within
  | recover running e => rw [e]; exact Nat.zero_le _
  | notice here new why e => rw [e]; exact within
  | schedule here new idle left entered e => rw [e]; exact left

/-- **What is known of failures stays known**, as long as nobody outside makes news of them up. -/
theorem Change.isInformed (unforged : Deed.IsUnforged admits) (h : Change S admits who s s')
    (hs : s.IsInformed S) : s'.IsInformed S where
  sound := h.isSound hs.sound
  record := h.isOnRecord hs.record
  honest := h.isHonest unforged.crash?_eq_none hs.honest
  frank := h.isFrank unforged hs.frank
  budget p := h.attempts_le hs.sound.fits (hs.budget p)

/-- Nobody but a cycle touches a lifecycle, where nobody outside does. -/
theorem Change.lifecycle?_of_other (h : Change S admits who s s')
    (unmarked : ∀ p m, ¬ admits (.mark p m)) (other : ∀ i, who ≠ some (.cycle i)) (p : Nat) :
    s'.lifecycle? p = s.lifecycle? p := by
  unfold State.lifecycle?
  rcases h.lifecycles with same | ⟨place, m, l, l', published, -, -, -, -, ⟨i, own⟩ | ⟨-, deed⟩⟩
  · rw [same]
  · exact absurd own (other i)
  · exact absurd deed (unmarked place m)

theorem Changes.lifecycle?_of_other (h : Changes S admits who s s')
    (unmarked : ∀ p m, ¬ admits (.mark p m)) (other : ∀ i, who ≠ some (.cycle i)) (p : Nat) :
    s'.lifecycle? p = s.lifecycle? p := by
  induction h with
  | refl => rfl
  | tail _ last ih => exact (last.lifecycle?_of_other unmarked other p).trans ih

/-- Nobody but a cycle tells of a move, where nobody outside does. -/
theorem Change.tells_no_move (h : Change S admits who s s')
    (unmarked : ∀ p m, ¬ admits (.mark p m)) (other : ∀ i, who ≠ some (.cycle i)) :
    State.Tells (fun e ↦ e.kind = .transition → admits (.publish e)) s s' := by
  refine h.tells.mono fun e such kind ↦ ?_
  rcases such kind with told | ⟨p, m, l, l', published, hl, hm, hl', mem⟩
  · exact told
  · -- A mark would have moved the resource, which is as it was.
    obtain ⟨x, hx, rfl⟩ := List.mem_map.1 mem
    obtain ⟨target, ht, -⟩ := Lifecycle.eq_transition_of_mark hm hx kind
    rw [h.lifecycle?_of_other unmarked other p, hl] at hl'
    cases hl'
    rcases Lifecycle.mark_eq_ok hm with ⟨none_, -⟩ | ⟨_, -, moves⟩
    · rw [ht] at none_
      cases none_
    · have legal := moves.legal
      rw [moves.status, Status.not_allows_self] at legal
      cases legal

theorem Changes.tells_no_move (h : Changes S admits who s s')
    (unmarked : ∀ p m, ¬ admits (.mark p m)) (other : ∀ i, who ≠ some (.cycle i)) :
    State.Tells (fun e ↦ e.kind = .transition → admits (.publish e)) s s' := by
  induction h with
  | refl => exact .refl s
  | tail _ last ih => exact ih.trans (last.tells_no_move unmarked other)

end Changes

/-! ### Marks of a cycle -/

namespace State

variable {S : Setup} {i p : Nat} {c : Cycle} {l l' : Lifecycle} {s s' t t' : State}

/-- From one state to another, the resource in a place is marked at most once, and no other move is
told of. -/
inductive MarksOnce (p : Nat) (l : Lifecycle) (s t : State) : Prop where
  | same (hl : t.lifecycle? p = some l) (more : List Event)
      (quiet : ∀ e ∈ more, e.kind ≠ .transition)
      (sent : t.ensemble.bus.sent = s.ensemble.bus.sent ++ more.toArray)
  | mark {m : Mark} {l' : Lifecycle} {published : List Publication}
      (hm : l.mark m = .ok (l', published)) (hl' : t.lifecycle? p = some l')
      (sent : t.ensemble.bus.sent
        = s.ensemble.bus.sent ++ (published.map (·.event)).toArray)

theorem MarksOnce.congr (h : MarksOnce p l s t) (before : s.ensemble = s'.ensemble)
    (after : t'.ensemble = t.ensemble) : MarksOnce p l s' t' := by
  cases h with
  | same hl more quiet sent =>
    refine .same ?_ more quiet ?_
    · rw [lifecycle?, after]
      exact hl
    · rw [after, sent, before]
  | mark hm hl' sent =>
    refine .mark hm ?_ ?_
    · rw [lifecycle?, after]
      exact hl'
    · rw [after, sent, before]

theorem marksOnce_refl (hl : s.lifecycle? p = some l) : MarksOnce p l s s :=
  .same hl [] (fun _ he ↦ absurd he List.not_mem_nil) (by simp)

theorem marksOnce_mark {m : Mark} (hm : s.mark p m = .ok t) (hl : s.lifecycle? p = some l) :
    MarksOnce p l s t := by
  rcases mark_cases hm with ⟨nobody, -⟩ | ⟨k, l', published, hk, marked, rfl⟩
  · cases hl.symm.trans nobody
  · cases hl.symm.trans hk
    refine .mark marked ?_ ?_
    · rw [publishAll_eq]
      exact Array.getElem?_setIfInBounds_self_of_lt (Array.getElem?_eq_some_iff.1 hl).1
    · rw [publishAll_eq]
      exact Ensemble.sent_publish _ _

theorem marksOnce_tryMark (m : Mark) (hl : s.lifecycle? p = some l) :
    MarksOnce p l s (s.tryMark p m) := by
  unfold tryMark
  split
  · exact marksOnce_mark ‹_› hl
  · exact marksOnce_refl hl

theorem marksOnce_settle (exit : Exit) (hl : s.lifecycle? p = some l) :
    MarksOnce p l s (s.settle p exit) := by
  unfold settle
  split
  · exact marksOnce_refl hl
  · exact marksOnce_tryMark _ hl

theorem marksOnce_request (cause : Cause) (hl : s.lifecycle? p = some l) :
    MarksOnce p l s (s.request cause).2 := by
  refine .same ((lifecycle?_request cause p).trans hl) (s.ensemble.shutdown.request cause).2.2
    (fun e he ↦ ?_) ?_
  · unfold Shutdown.request at he
    split at he
    · cases he
    · cases List.mem_singleton.1 he
      nofun
  · rw [request_eq, publishAll_eq]
    exact Ensemble.sent_publish _ _

theorem ensemble_endCycle (i : Nat) (s : State) : (s.endCycle i).ensemble = s.ensemble := rfl

theorem ensemble_callHook (S : Setup) (i place : Nat) (hook : Hook) (exit : Exit) (s : State) :
    (s.callHook S i place hook exit).ensemble = s.ensemble := by
  obtain ⟨b, members, -, e⟩ := callHook_eq S i place hook exit s
  rw [e]
  rfl

theorem HookStep.marksOnce {hook : Hook} {acts : List Act} {exit : Exit}
    (h : HookStep S i p hook acts exit s t) (hl : s.lifecycle? p = some l) :
    MarksOnce p l s t := by
  cases h with
  | rests => exact marksOnce_refl hl
  | acts left wake act first fewer =>
    cases act with
    | idle => exact (marksOnce_refl hl).congr rfl rfl
    | mark hm act => exact (marksOnce_mark hm hl).congr rfl rfl
    | note text => exact (marksOnce_refl hl).congr rfl rfl
    | @request cause text act => exact (marksOnce_request cause hl).congr rfl rfl
  | serves first hm => exact (marksOnce_mark hm hl).congr rfl (ensemble_callHook ..)
  | stops result before more => exact (marksOnce_refl hl).congr rfl (ensemble_callHook ..)
  | settles result last =>
    exact (marksOnce_settle (s := s.enter (.returned i hook result)) exit hl).congr rfl
      (ensemble_endCycle ..)

/-- **A step of a cycle marks its resource at most once.** -/
theorem CycleStep.marksOnce (h : CycleStep S i c s t) (hl : s.lifecycle? c.place = some l) :
    MarksOnce c.place l s t := by
  have noted (seen : List Nat) : (s.noteSeen i seen).lifecycle? c.place = some l :=
    (lifecycle?_noteSeen seen).trans hl
  cases h with
  | rests => exact marksOnce_refl hl
  | turnsAway => exact (marksOnce_refl hl).congr rfl rfl
  | begins fresh hm => exact (marksOnce_mark hm hl).congr rfl rfl
  | obeys => exact (marksOnce_tryMark .stopped hl).congr rfl (ensemble_endCycle ..)
  | breaks | flinches => exact (marksOnce_refl hl).congr rfl rfl
  | waits => exact (marksOnce_refl hl).congr rfl (ensemble_noteSeen ..)
  | starts =>
    exact (marksOnce_refl hl).congr rfl ((ensemble_callHook ..).trans (ensemble_noteSeen ..))
  | meets | fails =>
    exact (marksOnce_tryMark _ (noted _)).congr (ensemble_noteSeen ..) (ensemble_endCycle ..)
  | hooks inside step => exact step.marksOnce hl

/-! ### Why a resource is not ready -/

/-- Of everybody who has failed or crashed, the failure is why it is not ready. -/
def TellsWhy (s : State) : Prop := ∀ p l, s.lifecycle? p = some l → l.TellsWhy

/-- A meek cycle does not touch a resource once it has failed or crashed. -/
theorem CycleStep.lifecycle?_of_isFailure (h : CycleStep S i c s t) (meek : S.IsMeek)
    (hc : s.cycles[i]? = some c) (hl : s.lifecycle? c.place = some l)
    (suits : c.stage.Suits l.status) (failing : l.status.isFailure = true)
    (ended : l.status = .crashed ∨ c.stage = .finished) : t.lifecycle? c.place = some l := by
  have idle : ¬ c.stage.IsUnderWay := by
    intro underWay
    rcases suits.going underWay with e | e <;> rw [e] at failing <;> cases failing
  obtain ⟨c', l', -, -, hl', drives⟩ := h.drives meek hc hl suits
  cases drives with
  | rests isOver cycle same => exact same ▸ hl'
  | turnsAway fresh illegal isOver same => exact same ▸ hl'
  | begins fresh legal =>
    rcases ended with crashed | isOver
    · rw [crashed] at legal
      cases legal
    · rw [fresh] at isOver
      cases isOver
  | goesOn before => exact absurd before idle
  | ends before => exact absurd before idle

theorem CycleStep.tellsWhy (h : CycleStep S i c s t) (meek : S.IsMeek)
    (hc : s.cycles[i]? = some c) (hl : s.lifecycle? c.place = some l)
    (suits : c.stage.Suits l.status) (why : l.TellsWhy) (hl' : t.lifecycle? c.place = some l') :
    l'.TellsWhy := by
  obtain ⟨c', k, -, -, hk, drives⟩ := h.drives meek hc hl suits
  cases hk.symm.trans hl'
  have going : ∀ {stage : CycleStage} {status : Status}, stage.IsUnderWay → stage.Suits status →
      status.isFailure = false := by
    intro stage status underWay suits
    rcases suits.going underWay with rfl | rfl <;> rfl
  cases drives with
  | rests isOver cycle same => exact same ▸ why
  | turnsAway fresh illegal isOver same => exact same ▸ why
  | begins fresh legal gated status =>
    intro failing
    rw [status] at failing
    cases failing
  | goesOn before after suits' =>
    intro failing
    rw [going after suits'] at failing
    cases failing
  | ends before =>
    -- It was no failure before the step, so if it is one now, the step has marked it.
    cases h.marksOnce hl with
    | same same => cases same.symm.trans hl'; exact why
    | mark hm here =>
      cases here.symm.trans hl'
      rcases Lifecycle.mark_eq_ok hm with ⟨-, -, status, -⟩ | ⟨target, ht, -⟩
      · intro failing
        rw [status, going before suits] at failing
        cases failing
      · exact Lifecycle.tellsWhy_of_mark hm ht

end State

/-- **The reason why a resource is not ready stays that of its failure**, where everybody leaves the
status alone and nobody outside marks anything. -/
theorem Step.tellsWhy {S : Setup} {admits : Deed → Prop} {s s' : State} (h : Step S admits s s')
    (hooks : S.IsMeek) (unmarked : ∀ p m, ¬ admits (.mark p m)) (ho : s.IsOrderly) (hf : s.Fits S)
    (steady : s.IsSteady) (hs : s.TellsWhy) : s'.TellsWhy := by
  intro p l' hl'
  rcases h.turn_or_changes ho (fun t ↦ ∃ i, t = .cycle i) with
    ⟨_, ⟨i, rfl⟩, rfl⟩ | ⟨who, other, chain⟩
  · cases hc : s.cycles[i]? with
    | none =>
      rw [State.step_cycle_of_none hc] at hl'
      exact hs p l' hl'
    | some c =>
      have step : State.CycleStep S i c s (s.step S (.cycle i)) := State.cycleStep_step hc
      by_cases here : p = c.place
      · subst here
        obtain ⟨l, hl⟩ := hf.exists_lifecycle (hf.cycles i c hc)
        exact step.tellsWhy hooks hc hl (steady.suits i c l hc hl) (hs _ l hl) hl'
      · exact hs p l' (step.frame.2 p here ▸ hl')
  · rw [chain.lifecycle?_of_other unmarked fun i ↦ other _ ⟨i, rfl⟩] at hl'
    exact hs p l' hl'

end Supervision
