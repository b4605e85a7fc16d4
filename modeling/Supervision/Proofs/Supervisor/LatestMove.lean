import Supervision.Proofs.Supervisor.Failures

/-!
# The latest move of a resource

In one step of a supervisor a resource is marked at most once (`Step.lifecycle`). So the step in
which it comes into its status tells of one move only, and that news is its **latest move** for as
long as it stays in that status (`LatestMove`), whatever else is told on the bus meanwhile, and by
whom.

* `LatestMove.tells` — the news names the status that the resource is in, and of a failure the
  detail that the resource keeps.
* `Reaches.exists_latestMove` — whoever has moved has a latest move.
-/

namespace Supervision

section Steps

variable {S : Setup} {admits : Deed → Prop} {s s' : State} {p : Nat} {l l' : Lifecycle}

/-- **In a step a resource is marked at most once**, and if it is, what the mark says is all that is
published. -/
theorem Step.lifecycle (h : Step S admits s s') (ho : s.IsOrderly) (hl : s.lifecycle? p = some l) :
    s'.lifecycle? p = some l ∨
      ∃ m l' published, l.mark m = .ok (l', published) ∧ s'.lifecycle? p = some l' ∧
        s'.ensemble.bus.sent
          = s.ensemble.bus.sent ++ (published.map (·.event)).toArray := by
  have once : ∀ {t : State}, State.MarksOnce p l s t → t.lifecycle? p = some l ∨
      ∃ m l' published, l.mark m = .ok (l', published) ∧ t.lifecycle? p = some l' ∧
        t.ensemble.bus.sent
          = s.ensemble.bus.sent ++ (published.map (·.event)).toArray := by
    intro t marks
    cases marks with
    | same same more quiet sent => exact .inl same
    | mark hm hl' sent => exact .inr ⟨_, _, _, hm, hl', sent⟩
  cases h with
  | pass moment later idle timers => exact .inl hl
  | turn t enabled =>
    by_cases ofCycle : ∃ i, t = .cycle i
    · obtain ⟨i, rfl⟩ := ofCycle
      cases hc : s.cycles[i]? with
      | none => exact .inl (by rw [State.step_cycle_of_none hc]; exact hl)
      | some c =>
        have step : State.CycleStep S i c s (s.step S (.cycle i)) := State.cycleStep_step hc
        by_cases here : p = c.place
        · subst here
          exact once (step.marksOnce hl)
        · exact .inl ((step.frame.2 p here).trans hl)
    · have chain : Changes S (fun _ ↦ False) (some t) s (s.step S t) := State.changes_step t s ho
      refine .inl ((chain.lifecycle?_of_other (fun _ _ ↦ id) (fun i own ↦ ?_) p).trans hl)
      exact ofCycle ⟨i, Option.some.inj own⟩
  | deed d admitted =>
    by_cases ofMark : ∃ place m, d = .mark place m
    · obtain ⟨place, m, rfl⟩ := ofMark
      by_cases here : p = place
      · subst here
        exact once (State.marksOnce_tryMark m hl)
      · exact .inl ((State.lifecycle?_tryMark_of_ne m here).trans hl)
    · have chain : Changes S (· = d) none s (s.undergo d) := State.changes_undergo d s rfl
      refine .inl ((chain.lifecycle?_of_other (fun place m own ↦ ?_) (fun _ ↦ nofun) p).trans hl)
      exact ofMark ⟨place, m, own.symm⟩

/-- Who stays in its status keeps its latest failure and the count of its failures. -/
theorem Step.keeps_failure (h : Step S admits s s') (ho : s.IsOrderly)
    (hl : s.lifecycle? p = some l) (hl' : s'.lifecycle? p = some l') (same : l'.status = l.status) :
    l'.name = l.name ∧ l'.failures = l.failures ∧ l'.lastFailure = l.lastFailure := by
  rcases h.lifecycle ho hl with stays | ⟨m, k, published, hm, hk, -⟩
  · cases stays.symm.trans hl'
    exact ⟨rfl, rfl, rfl⟩
  · cases hk.symm.trans hl'
    rcases Lifecycle.mark_eq_ok hm with ⟨none_, name, -, failures⟩ | ⟨target, -, moves⟩
    · exact ⟨name, failures, Lifecycle.lastFailure_of_mark hm none_⟩
    · have legal := moves.legal
      rw [← moves.status, same, Status.not_allows_self] at legal
      cases legal

/-- Who moves tells of it, and nobody tells of another move in that step. -/
theorem Step.tells_move (h : Step S admits s s') (ho : s.IsOrderly)
    (hl : s.lifecycle? p = some l) (hl' : s'.lifecycle? p = some l')
    (moved : l'.status ≠ l.status) :
    ∃ failure more, s'.ensemble.bus.sent = s.ensemble.bus.sent ++ List.toArray more ∧
      .transition ⟨l.name, l.status, l'.status, failure⟩ ∈ more ∧
      (∀ e ∈ more, e.kind = .transition →
        e = .transition ⟨l.name, l.status, l'.status, failure⟩) ∧
      l'.name = l.name ∧
      (l'.status.isFailure = true → ∃ f, failure = some f ∧ l'.lastFailure = some f) := by
  rcases h.lifecycle ho hl with stays | ⟨m, k, published, hm, hk, sent⟩
  · cases stays.symm.trans hl'
    exact absurd rfl moved
  · cases hk.symm.trans hl'
    rcases Lifecycle.mark_eq_ok hm with ⟨-, -, status, -⟩ | ⟨target, ht, moves⟩
    · exact absurd status moved
    · have news : (⟨_, l'⟩ : Publication) ∈ published := moves.news
      refine ⟨m.failure?, published.map (·.event), sent, ?_, fun e he kind ↦ ?_, moves.name,
        fun failing ↦ ?_⟩
      · rw [moves.status]
        exact List.mem_map_of_mem news
      · obtain ⟨x, hx, rfl⟩ := List.mem_map.1 he
        obtain ⟨target', ht', same⟩ := Lifecycle.eq_transition_of_mark hm hx kind
        cases ht.symm.trans ht'
        rw [moves.status]
        exact same
      · rw [moves.status] at failing
        obtain ⟨f, hf⟩ := Lifecycle.exists_failure_of_mark ht failing
        exact ⟨f, hf, by rw [moves.lastFailure, hf]; rfl⟩

/-- From one state to another, whatever is told of a move a resource has made, or somebody outside
tells of it. -/
def State.TellsMoves (admits : Deed → Prop) (s t : State) : Prop :=
  ∃ more, t.ensemble.bus.sent = s.ensemble.bus.sent ++ List.toArray more ∧
    ∀ e ∈ more, e.kind = .transition → admits (.publish e) ∨
      ∃ p l l' failure, s.lifecycle? p = some l ∧ t.lifecycle? p = some l' ∧
        l.status.allows l'.status = true ∧ e = .transition ⟨l.name, l.status, l'.status, failure⟩

theorem State.Tells.tellsMoves {t : State} {told : Event → Prop}
    (h : State.Tells (fun e ↦ e.kind = .transition → told e) s t)
    (only : ∀ e, told e → admits (.publish e)) : s.TellsMoves admits t := by
  obtain ⟨more, -, sent, such⟩ := h
  exact ⟨more, sent, fun e he kind ↦ .inl (only e (such e he kind))⟩

theorem State.tellsMoves_refl (s : State) : s.TellsMoves admits s :=
  ⟨[], by rw [Array.append_empty], fun _ he ↦ absurd he List.not_mem_nil⟩

theorem State.MarksOnce.tellsMoves {t : State} (h : State.MarksOnce p l s t)
    (hl : s.lifecycle? p = some l) : s.TellsMoves admits t := by
  cases h with
  | same hl more quiet sent => exact ⟨more, sent, fun e he kind ↦ absurd kind (quiet e he)⟩
  | mark hm hl' sent =>
    refine ⟨_, sent, fun e he kind ↦ .inr ?_⟩
    obtain ⟨x, hx, rfl⟩ := List.mem_map.1 he
    obtain ⟨target, ht, same⟩ := Lifecycle.eq_transition_of_mark hm hx kind
    rcases Lifecycle.mark_eq_ok hm with ⟨none_, -⟩ | ⟨target', ht', moves⟩
    · cases ht.symm.trans none_
    · cases ht.symm.trans ht'
      rw [← moves.status] at same
      exact ⟨p, l, _, _, hl, hl', moves.status ▸ moves.legal, same⟩

/-- **Whatever a step tells of a move, a resource has made it in that step**, or somebody outside
has told of it. -/
theorem Step.tellsMoves (h : Step S admits s s') (ho : s.IsOrderly) (hf : s.Fits S) :
    s.TellsMoves admits s' := by
  cases h with
  | pass moment later idle timers => exact s.tellsMoves_refl
  | turn t enabled =>
    by_cases ofCycle : ∃ i, t = .cycle i
    · obtain ⟨i, rfl⟩ := ofCycle
      cases hc : s.cycles[i]? with
      | none =>
        rw [State.step_cycle_of_none hc]
        exact s.tellsMoves_refl
      | some c =>
        obtain ⟨l, hl⟩ := hf.exists_lifecycle (hf.cycles i c hc)
        exact ((State.cycleStep_step hc).marksOnce hl).tellsMoves hl
    · have chain : Changes S (fun _ ↦ False) (some t) s (s.step S t) := State.changes_step t s ho
      refine (chain.tells_no_move (fun _ _ ↦ id) fun i own ↦ ?_).tellsMoves fun _ ↦ False.elim
      exact ofCycle ⟨i, Option.some.inj own⟩
  | deed d admitted =>
    by_cases ofMark : ∃ place m, d = .mark place m
    · obtain ⟨place, m, rfl⟩ := ofMark
      cases hl : s.lifecycle? place with
      | none =>
        have stays : s.undergo (.mark place m) = s := by
          show s.tryMark place m = s
          unfold State.tryMark State.mark Ensemble.mark
          have nobody : s.ensemble.members[place]? = none := hl
          rw [nobody]
          rfl
        rw [stays]
        exact s.tellsMoves_refl
      | some l => exact (State.marksOnce_tryMark m hl).tellsMoves hl
    · have chain : Changes S (· = d) none s (s.undergo d) := State.changes_undergo d s rfl
      refine (chain.tells_no_move (fun place m own ↦ ?_) fun _ ↦ nofun).tellsMoves fun e own ↦ ?_
      · exact ofMark ⟨place, m, own.symm⟩
      · exact own ▸ admitted

end Steps

/-- The news of the latest move of the resource in a place, and the moment of that move, in a run
from `s₀` on: it was told in the step with which the resource came into its status, and the resource
has stayed in it since. -/
inductive LatestMove (S : Setup) (admits : Deed → Prop) (s₀ : State) (p : Nat) (news : Event)
    (since : Nat) : State → Prop where
  | made {s s' : State} {more : List Event} (run : Reaches S admits s₀ s)
      (step : Step S admits s s') (moved : s'.ensemble.status? p ≠ s.ensemble.status? p)
      (sent : s'.ensemble.bus.sent = s.ensemble.bus.sent ++ more.toArray) (told : news ∈ more)
      (kind : news.kind = .transition) (moment : s'.now = since) :
      LatestMove S admits s₀ p news since s'
  | kept {s s' : State} (before : LatestMove S admits s₀ p news since s)
      (step : Step S admits s s') (same : s'.ensemble.status? p = s.ensemble.status? p) :
      LatestMove S admits s₀ p news since s'

section LatestMove

variable {S : Setup} {admits : Deed → Prop} {bus : Bus} {recorder : Option Recorder} {now : Nat}
  {s₀ s s' : State} {p since : Nat} {news : Event} {l : Lifecycle}

theorem LatestMove.reaches (h : LatestMove S admits s₀ p news since s) : Reaches S admits s₀ s := by
  induction h with
  | made run step => exact run.step step
  | kept before step same ih => exact ih.step step

theorem State.status?_eq (hl : s.lifecycle? p = some l) :
    s.ensemble.status? p = some l.status :=
  congrArg (Option.map Lifecycle.status) hl

theorem Step.exists_lifecycle (h : Step S admits s s') (ho : s.IsOrderly) {l' : Lifecycle}
    (hl' : s'.lifecycle? p = some l') : ∃ l, s.lifecycle? p = some l := by
  obtain ⟨who, chain⟩ := h.changes ho
  clear h ho
  induction chain generalizing l' with
  | refl => exact ⟨l', hl'⟩
  | tail _ last ih =>
    obtain ⟨l, hl, -⟩ := last.lifecycle hl'
    exact ih hl

/-- **The latest move tells where the resource is**, and of a failure what the resource keeps of
it. -/
theorem LatestMove.tells (h : LatestMove S admits (.initial S bus recorder now) p news since s)
    (hl : s.lifecycle? p = some l) :
    ∃ source failure, news = .transition ⟨l.name, source, l.status, failure⟩ ∧
      (l.status.isFailure = true → ∃ f, failure = some f ∧ l.lastFailure = some f) := by
  induction h generalizing l with
  | made run step moved sent told kind =>
    have ho := run.fits.1
    obtain ⟨k, hk⟩ := step.exists_lifecycle ho hl
    rw [State.status?_eq hl, State.status?_eq hk] at moved
    obtain ⟨failure, more, sent', -, only, name, detail⟩ :=
      step.tells_move ho hk hl fun same ↦ moved (congrArg some same)
    have same := List.toArray_inj ((Array.append_right_inj _).1 (sent.symm.trans sent'))
    refine ⟨k.status, failure, ?_, detail⟩
    rw [name]
    exact only news (same ▸ told) kind
  | kept before step same ih =>
    have ho := before.reaches.fits.1
    obtain ⟨k, hk⟩ := step.exists_lifecycle ho hl
    rw [State.status?_eq hl, State.status?_eq hk] at same
    obtain ⟨name, -, last⟩ := step.keeps_failure ho hk hl (Option.some.inj same)
    rw [name, Option.some.inj same, last]
    exact ih hk

/-- **Who has moved has a latest move.** -/
theorem Reaches.exists_latestMove (h : Reaches S admits (.initial S bus recorder now) s)
    (hl : s.lifecycle? p = some l) (begun : l.status ≠ .notStarted) :
    ∃ news since, LatestMove S admits (.initial S bus recorder now) p news since s := by
  generalize start : State.initial S bus recorder now = s₀ at h ⊢
  induction h generalizing l with
  | refl =>
    subst start
    obtain ⟨name, rfl⟩ := State.lifecycle?_initial hl
    exact absurd rfl begun
  | step before last ih =>
    subst start
    have ho := before.fits.1
    obtain ⟨k, hk⟩ := last.exists_lifecycle ho hl
    by_cases same : l.status = k.status
    · obtain ⟨news, since, latest⟩ := ih hk (same ▸ begun)
      exact ⟨news, since,
        .kept latest last (by rw [State.status?_eq hl, State.status?_eq hk, same])⟩
    · obtain ⟨failure, more, sent, told, -⟩ := last.tells_move ho hk hl same
      refine ⟨_, _, .made before last (fun same' ↦ same ?_) sent told rfl rfl⟩
      rw [State.status?_eq hl, State.status?_eq hk] at same'
      exact Option.some.inj same'

end LatestMove

end Supervision
