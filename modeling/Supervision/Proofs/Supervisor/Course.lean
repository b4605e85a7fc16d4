import Supervision.Proofs.Supervisor.Beats
import Supervision.Proofs.Supervisor.Deadline
import Supervision.Proofs.Supervisor.Grace
import Supervision.Proofs.Supervisor.News

/-!
# The course of a cycle

A cycle goes on alone (`LoneStep`) as long as nobody else marks its resource and the host does not
give it up; everybody may do anything else meanwhile. Its beats then follow its course: a step of
the cycle adds the beats that lead to where it stands after it (`State.Advances`), and nobody else
adds any.

A cycle leaves its course when it has to wait up to a deadline beyond every clock, or when a hook of
it panics while it is called (`State.Flinches`): then it breaks off.

* `State.RunsCourse.step` — one step of a cycle.
* `LoneRun.runsCourse_or_flinches` — a whole run.
-/

namespace Supervision

namespace Lifecycle

variable {m : Mark} {c c' : Lifecycle} {published : List Publication}

theorem targets_setReadiness (r : Readiness) (c : Lifecycle) :
    (c.setReadiness r).2.filterMap (·.event.target?) = [] := by
  unfold setReadiness
  split <;> rfl

/-- What a mark publishes tells of its own move only. -/
theorem targets_of_mark (h : c.mark m = .ok (c', published)) :
    published.filterMap (·.event.target?) = m.target?.toList := by
  cases ht : m.target? with
  | some target =>
    rw [mark_eq_move ht] at h
    unfold move at h
    split at h
    · cases h
      rw [List.filterMap_append]
      split
      · rw [targets_setReadiness]
        rfl
      · rfl
    · cases h
  | none =>
    rcases mark_of_target?_eq_none (c := c) ht with same | ⟨r, same⟩
    · cases same.symm.trans h
      rfl
    · have said : (c.setReadiness r).2 = published :=
        congrArg Prod.snd (Except.ok.inj (same.symm.trans h))
      rw [← said, targets_setReadiness]
      rfl

end Lifecycle

theorem Mark.target?_ne_notStarted {m : Mark} {target : Status} (h : m.target? = some target) :
    target ≠ .notStarted := by
  cases m <;> cases h <;> nofun

/-- The hook that the cycle is in panics while it is called. -/
def CycleStage.Flinches : CycleStage → Prop
  | .inside _ (a :: _) _ _ => a.isFlinch = true
  | _ => False

theorem CycleStage.Flinches.exists_eq {stage : CycleStage} (h : stage.Flinches) :
    ∃ hook payload rest wake exit, stage = .inside hook (.flinch payload :: rest) wake exit := by
  cases stage with
  | inside hook acts wake exit =>
    cases acts with
    | nil => exact absurd h id
    | cons a rest =>
      cases a with
      | flinch payload => exact ⟨hook, payload, rest, wake, exit, rfl⟩
      | _ => cases h
  | _ => exact absurd h id

namespace State

variable {S : Setup} {i p : Nat} {c : Cycle} {l : Lifecycle} {s t u : State} {done more : List Beat}
  {hook : Hook} {acts : List Act} {wake : Option Nat} {exit : Exit}

/-- The beats of cycle `i` as the chronicle has them, and whoever else moves a resource. -/
def beats (i : Nat) (s : State) : List Beat := s.view fun x ↦ x.what.beat? i

/-! ### What is done adds beats -/

/-- From one state to another cycle `i` makes these beats, and they say how the resource in place
`p` moves. -/
structure Makes (i p : Nat) (more : List Beat) (s t : State) : Prop where
  beats : t.beats i = s.beats i ++ more
  status : ∀ l, s.lifecycle? p = some l →
    ∃ l', t.lifecycle? p = some l' ∧ l'.status = Beat.leaves l.status more
  begun : ∀ target, .moves target ∈ more → target ≠ .notStarted

theorem Makes.trans {more' : List Beat} (h : Makes i p more s t) (h' : Makes i p more' t u) :
    Makes i p (more ++ more') s u where
  beats := by rw [h'.beats, h.beats, List.append_assoc]
  status l hl := by
    obtain ⟨k, hk, first⟩ := h.status l hl
    obtain ⟨l', hl', second⟩ := h'.status k hk
    exact ⟨l', hl', by rw [second, first, Beat.leaves_append]⟩
  begun target mem := (List.mem_append.1 mem).elim (h.begun target) (h'.begun target)

/-- What touches neither the chronicle nor the lifecycles adds no beats. -/
theorem Makes.of_eq (chronicle : t.chronicle = s.chronicle) (ensemble : t.ensemble = s.ensemble) :
    Makes i p [] s t where
  beats := (view_of_chronicle chronicle).trans (List.append_nil _).symm
  status l hl := ⟨l, by rw [lifecycle?, ensemble]; exact hl, rfl⟩
  begun _ mem := absurd mem List.not_mem_nil

theorem Makes.congr (h : Makes i p more s t) (chronicle : u.chronicle = t.chronicle)
    (ensemble : u.ensemble = t.ensemble) : Makes i p more s u := by
  have same := h.trans (.of_eq chronicle ensemble)
  rw [List.append_nil] at same
  exact same

/-- What is entered adds its beat, and the resource stays where it is. -/
theorem makes_enter {h : Happening} (beat : (h.beat? i).toList = more)
    (still : ∀ target, .moves target ∉ more) : Makes i p more s (s.enter h) where
  beats := beat ▸ view_enter _ h s
  status l hl := ⟨l, hl, (Beat.leaves_of_moves (P := (l.status = ·)) rfl
    fun target mem ↦ absurd mem (still target))⟩
  begun target mem := absurd mem (still target)

/-- A note adds no beats. -/
theorem makes_note {h : Happening} (silent : h.beat? i = none) : Makes i p [] s (s.enter h) :=
  makes_enter (by rw [silent]; rfl) fun _ ↦ List.not_mem_nil

theorem makes_called (hook : Hook) : Makes i p [.calls hook] s (s.enter (.called i hook)) :=
  makes_enter (by simp [Happening.beat?]) (by simp)

theorem makes_returned (hook : Hook) (exit : Exit) :
    Makes i p [.returns hook exit] s (s.enter (.returned i hook exit)) :=
  makes_enter (by simp [Happening.beat?]) (by simp)

theorem beats_publishAll (es : List Event) (s : State) :
    (s.publishAll es).beats i = s.beats i ++ (es.filterMap Event.target?).map .moves := by
  unfold beats view
  rw [publishAll_eq]
  simp [List.filterMap_append, List.filterMap_map, List.map_filterMap, Happening.beat?]

/-- A mark of its own resource adds the move. -/
theorem makes_mark {m : Mark} (h : s.mark p m = .ok t) (hl : s.lifecycle? p = some l) :
    Makes i p (m.target?.toList.map .moves) s t where
  beats := by
    rcases mark_cases h with ⟨nobody, -⟩ | ⟨k, l', published, hk, hm, rfl⟩
    · rw [hl] at nobody
      cases nobody
    · rw [beats_publishAll, List.filterMap_map, ← Lifecycle.targets_of_mark hm]
      rfl
  status k hk := by
    obtain ⟨l', published, hm, hl'⟩ := lifecycle?_mark h hk
    refine ⟨l', hl', ?_⟩
    rcases Lifecycle.mark_eq_ok hm with ⟨none, -, same, -⟩ | ⟨target, ht, moves⟩
    · rw [none]
      exact same
    · rw [ht]
      exact moves.status
  begun target mem := by
    obtain ⟨target', ht, same⟩ := List.mem_map.1 mem
    cases same
    exact Mark.target?_ne_notStarted (by simpa using ht)

/-- So does a mark that may be. -/
theorem makes_tryMark {m : Mark} {target : Status} (ht : m.target? = some target)
    (hl : s.lifecycle? p = some l) (legal : l.status.allows target = true) :
    Makes i p [.moves target] s (s.tryMark p m) := by
  unfold tryMark
  cases hm : s.mark p m with
  | ok t =>
    have makes : Makes i p (m.target?.toList.map .moves) s t := makes_mark hm hl
    rw [ht] at makes
    exact makes
  | error e => cases legal.symm.trans (illegal_of_mark hm ht hl)

/-- To publish what tells of no move adds no beats. -/
theorem makes_publishAll {es : List Event} (quiet : ∀ e ∈ es, e.target? = none) :
    Makes i p [] s (s.publishAll es) where
  beats := by
    rw [beats_publishAll, List.filterMap_eq_nil_iff.2 quiet]
    rfl
  status l hl := ⟨l, by rw [publishAll_eq]; exact hl, rfl⟩
  begun _ mem := absurd mem List.not_mem_nil

theorem makes_request (c : Cause) (s : State) : Makes i p [] s (s.request c).2 := by
  have quiet : ∀ e ∈ (s.ensemble.shutdown.request c).2.2, e.target? = none := by
    intro e he
    unfold Shutdown.request at he
    split at he
    · cases he
    · cases List.mem_singleton.1 he
      rfl
  have asked : Makes i p [] s { s with
      ensemble := { s.ensemble with shutdown := (s.ensemble.shutdown.request c).2.1 } } :=
    ⟨(List.append_nil _).symm, fun l hl ↦ ⟨l, hl, rfl⟩, fun _ mem ↦ absurd mem List.not_mem_nil⟩
  rw [request_eq]
  exact (asked.trans (makes_publishAll quiet)).trans (makes_note rfl)

theorem makes_noteSeen (seen : List Nat) (s : State) : Makes i p [] s (s.noteSeen i seen) := by
  unfold noteSeen
  split
  · exact .of_eq rfl rfl
  · exact makes_note rfl

theorem makes_endCycle (s : State) : Makes i p [] s (s.endCycle i) := by
  have finished : Makes i p [] s (s.setCycle i .finished) := .of_eq rfl rfl
  exact finished.trans (makes_note rfl)

theorem makes_callHook (hook : Hook) (exit : Exit) (s : State) :
    Makes i p [.calls hook] s (s.callHook S i p hook exit) := by
  obtain ⟨b, members, -, e⟩ := callHook_eq S i p hook exit s
  have counted : Makes i p [] s (({ s with members := members } : State).setCycle i
      (.inside hook (b.script hook) none exit)) := .of_eq rfl rfl
  rw [e]
  exact counted.trans (makes_called hook)

/-- An act of a hook adds the moves that it makes. -/
theorem HookAct.makes {a : Act} (h : HookAct p a s t) (hl : s.lifecycle? p = some l) :
    ∃ own : List Status, Makes i p (own.map .moves) s t := by
  cases h with
  | idle => exact ⟨[], .of_eq rfl rfl⟩
  | @mark m _ hm act => exact ⟨m.target?.toList, makes_mark hm hl⟩
  | note text => exact ⟨[], makes_note rfl⟩
  | @request cause text act => exact ⟨[], (makes_request cause s).trans (makes_note rfl)⟩

/-- At the end of its stop hook a cycle settles its resource, which has been started. -/
theorem makes_settle (exit : Exit) (hl : s.lifecycle? p = some l)
    (begun : l.status ≠ .notStarted) :
    Makes i p (Cycle.settling exit l.status) s (s.settle p exit) := by
  have status : s.ensemble.status? p = some l.status := congrArg (Option.map Lifecycle.status) hl
  unfold settle Cycle.settling
  rw [status]
  cases settled : l.status.isTerminal with
  | true =>
    simp only [Option.all_some, settled, if_true]
    exact .of_eq rfl rfl
  | false =>
    simp only [Option.all_some, settled, Bool.false_eq_true, if_false]
    exact makes_tryMark exit.target?_mark hl
      (Status.allows_of_isTerminal (Status.starting_or_running begun settled)
        exit.isTerminal_verdict)

/-! ### A step of the cycle -/

/-- Cycle `i`, which stood as `c` and had made these beats, makes some more, which lead to where it
stands then. -/
def Advances (i : Nat) (c : Cycle) (done : List Beat) (s t : State) : Prop :=
  ∃ more stage, Makes i c.place more s t ∧ t.cycles[i]? = some { c with stage := stage } ∧
    Cycle.IsCourse stage (done ++ more)

/-- A fresh cycle moves its resource to starting, if it may, and waits then. -/
theorem begins_of_fresh (hc : s.cycles[i]? = some c) (fresh : c.stage = .fresh)
    (hl : s.lifecycle? c.place = some l) (may : l.status.allows .starting = true) :
    Makes i c.place [.moves .starting] s (s.step S (.cycle i)) ∧
      (s.step S (.cycle i)).cycles[i]? = some { c with stage := .gated none } := by
  rcases step_fresh (S := S) hc fresh with ⟨t, hm, e⟩ | ⟨e, hm, -⟩
  · have makes : Makes i c.place [.moves .starting] s t := makes_mark hm hl
    rw [e]
    exact ⟨makes.congr rfl rfl, getElem?_setCycle_self _ (by rw [cycles_of_mark hm]; exact hc)⟩
  · cases may.symm.trans (illegal_of_mark hm rfl hl)

/-- When a hook has ended, the stop hook may be called. -/
theorem advances_toStop (S : Setup) {beats : List Beat} {result : Exit}
    (hc : s.cycles[i]? = some c) (until_ : Cycle.UntilStop beats result)
    (split : done ++ [.returns hook result, .calls .stop] = .moves .starting :: beats) :
    Advances i c done s
      ((s.enter (.returned i hook result)).callHook S i c.place .stop result) := by
  obtain ⟨b, -, called⟩ := getElem?_callHook_self (S := S) (s := s.enter (.returned i hook result))
    c.place .stop result hc
  refine ⟨_, _, (makes_returned hook result).trans (makes_callHook .stop result _), called, ?_⟩
  have course : Cycle.IsCourse (.inside .stop (b.script .stop) none result)
      (.moves .starting :: beats ++ [].map .moves) := .stops until_ []
  rw [← split, List.map_nil, List.append_nil] at course
  exact course

/-- The end of the start hook leads to the service, if it is in good order and the resource is
starting still, and to the stop hook else. -/
theorem advances_leaveStart {first : Status} {own : List Status} (result : Exit)
    (hc : s.cycles[i]? = some c) (hl : s.lifecycle? c.place = some l)
    (status : l.status = Beat.leaves first (.moves .starting :: .calls .start :: own.map .moves)) :
    Advances i c (.moves .starting :: .calls .start :: own.map .moves) s
      (s.leaveHook S i c.place .start result exit) := by
  have returned : Makes i c.place [.returns .start result] s
      (s.enter (.returned i .start result)) := makes_returned .start result
  have unserved : ¬ (result = .clean ∧ l.status = .starting) →
      Advances i c (.moves .starting :: .calls .start :: own.map .moves) s
        ((s.enter (.returned i .start result)).callHook S i c.place .stop result) :=
    fun held ↦ advances_toStop S hc (.unserved (status ▸ held)) (by simp)
  unfold leaveHook
  dsimp only
  split
  · rename_i clean
    subst clean
    cases hm : (s.enter (.returned i .start .clean)).mark c.place .running with
    | ok t =>
      have legal : l.status.allows .running = true := allows_of_mark rfl hm hl
      have still : l.status = .starting := by simpa using Status.allows_iff.1 legal
      have marked : Makes i c.place [.moves .running] (s.enter (.returned i .start .clean)) t :=
        makes_mark hm hl
      obtain ⟨b, -, called⟩ := getElem?_callHook_self (S := S) c.place .serve .clean
        (show t.cycles[i]? = some c by rw [cycles_of_mark hm]; exact hc)
      refine ⟨_, _, (returned.trans marked).trans (makes_callHook .serve .clean t), called, ?_⟩
      have course : Cycle.IsCourse (.inside .serve (b.script .serve) none .clean) _ :=
        .serves (status.symm.trans still) []
      simpa using course
    | error e =>
      -- The start hook has moved the resource on.
      refine unserved fun ⟨_, still⟩ ↦ ?_
      have illegal := illegal_of_mark hm rfl hl
      rw [still] at illegal
      cases illegal
  · rename_i unclean
    exact unserved fun ⟨clean, _⟩ ↦ unclean clean

/-- The end of a hook leads to the next, or to the end of the cycle. -/
theorem advances_leaveHook {first : Status} (result : Exit) (hc : s.cycles[i]? = some c)
    (course : Cycle.IsCourse (.inside hook acts wake exit) done)
    (hl : s.lifecycle? c.place = some l) (status : l.status = Beat.leaves first done)
    (begun : l.status ≠ .notStarted) :
    Advances i c done s (s.leaveHook S i c.place hook result exit) := by
  cases course with
  | starts own => exact advances_leaveStart result hc hl status
  | serves still own' => exact advances_toStop S hc (.served still own') (by simp)
  | stops until_ own =>
    have returned : Makes i c.place [.returns .stop result] s
        (s.enter (.returned i .stop result)) := makes_returned .stop result
    have settled := makes_settle (i := i) (s := s.enter (.returned i .stop result)) exit hl begun
    refine ⟨_, _, (returned.trans settled).trans (makes_endCycle _),
      getElem?_endCycle_self (by rw [cycles_settle]; exact hc), ?_⟩
    have course := Cycle.IsCourse.finished (Cycle.IsWhole.hooked until_ own result)
    rw [status]
    simpa using course

/-- A step in a hook stays in it, with the moves that it makes, or ends it. -/
theorem advances_hook {first : Status} (hc : s.cycles[i]? = some c)
    (inside : c.stage = .inside hook acts wake exit) (steady : ¬ c.stage.Flinches)
    (course : Cycle.IsCourse (.inside hook acts wake exit) done)
    (hl : s.lifecycle? c.place = some l) (status : l.status = Beat.leaves first done)
    (begun : l.status ≠ .notStarted) : Advances i c done s (s.step S (.cycle i)) := by
  have goesOn : ∀ {t : State} (own : List Status) (left : List Act) (wake' : Option Nat),
      Makes i c.place (own.map .moves) s t → t.cycles[i]? = some c →
      Advances i c done s (t.setCycle i (.inside hook left wake' exit)) :=
    fun own left wake' makes ht ↦ ⟨own.map .moves, _, makes.congr rfl rfl,
      getElem?_setCycle_self _ ht, course.goesOn own⟩
  show Advances i c done s (s.stepCycle S i)
  unfold stepCycle
  rw [hc]
  dsimp only
  rw [inside]
  cases acts with
  | nil => exact advances_leaveHook .clean hc course hl status begun
  | cons a rest =>
    have step := actStep_doAct S i c hook a rest wake exit s
    dsimp only
    generalize s.doAct S i c hook a rest wake exit = t at step
    cases step with
    | stays =>
      exact ⟨[], c.stage, .of_eq rfl rfl, hc, by rw [List.append_nil, inside]; exact course⟩
    | lies positive awake act => exact goesOn [] _ _ (.of_eq rfl rfl) hc
    | passes act =>
      obtain ⟨own, makes⟩ := act.makes (i := i) hl
      exact goesOn own _ _ makes (by rw [act.cycles]; exact hc)
    | leaves result => exact advances_leaveHook result hc course hl status begun
    | flinches act =>
      rw [inside] at steady
      exact absurd (congrArg Act.isFlinch act) steady

/-- A cycle that was told to end does not look at the clock. -/
theorem step_gated_of_told {wait? : Option Wait} (hc : s.cycles[i]? = some c)
    (gated : c.stage = .gated wait?) (told : c.cancelled = true) :
    s.step S (.cycle i) = (s.tryMark c.place .stopped).endCycle i := by
  show s.stepCycle S i = _
  unfold stepCycle
  rw [hc]
  dsimp only
  rw [gated]
  exact if_pos told

/-- A cycle may leave its resource stopped or failed before it has called a hook. -/
theorem advances_leave {m : Mark} {target : Status} (makes : Makes i c.place [] s t)
    (hc : t.cycles[i]? = some c) (hl : t.lifecycle? c.place = some l)
    (starting : l.status = .starting) (marks : m.target? = some target)
    (ends : target = .stopped ∨ target = .failed) :
    Advances i c [.moves .starting] s ((t.tryMark c.place m).endCycle i) := by
  have legal : l.status.allows target = true := by
    rw [starting]
    rcases ends with rfl | rfl <;> rfl
  have marked : Makes i c.place [.moves target] t (t.tryMark c.place m) :=
    makes_tryMark marks hl legal
  exact ⟨_, _, (makes.trans marked).trans (makes_endCycle _), getElem?_leave c.place m hc,
    .finished (.unready ends)⟩

/-- A cycle that waits for what its resource depends on calls the start hook, or leaves the resource
stopped or failed. -/
theorem advances_gated {wait? : Option Wait} (hc : s.cycles[i]? = some c)
    (gated : c.stage = .gated wait?) (hl : s.lifecycle? c.place = some l)
    (starting : l.status = .starting)
    (within : S.needs c.place = [] ∨ S.settings.startupTimeout.isBeyondClocks = false ∨
      c.cancelled = true) :
    Advances i c [.moves .starting] s (s.step S (.cycle i)) := by
  by_cases told : c.cancelled = true
  · rw [step_gated_of_told hc gated told]
    exact advances_leave (.of_eq rfl rfl) hc hl starting rfl (.inl rfl)
  have near : S.needs c.place = [] ∨ S.settings.startupTimeout.isBeyondClocks = false :=
    within.imp_right (Or.resolve_right · told)
  have noted : ∀ seen, Makes i c.place [] s (s.noteSeen i seen) := fun seen ↦ makes_noteSeen seen s
  have still : ∀ seen, (s.noteSeen i seen).lifecycle? c.place = some l :=
    fun seen ↦ (lifecycle?_noteSeen ..).trans hl
  have step : CycleStep S i c s (s.step S (.cycle i)) := cycleStep_step hc
  generalize s.step S (.cycle i) = t at step
  cases step with
  | rests isOver => cases gated.symm.trans isOver
  | turnsAway fresh hm => cases gated.symm.trans fresh
  | begins fresh hm => cases gated.symm.trans fresh
  | obeys _ cancelled => exact absurd cancelled told
  | breaks _ far waits =>
    rcases near with none | near
    · exact absurd none waits
    · cases far.symm.trans near
  | waits looks going =>
    exact ⟨[], _, (noted _).congr rfl rfl, getElem?_setCycle_self _ (getElem?_noteSeen hc), .gated⟩
  | starts looks ready =>
    obtain ⟨b, -, called⟩ := getElem?_callHook_self (S := S) c.place .start .clean
      (getElem?_noteSeen hc)
    exact ⟨_, _, (noted _).trans (makes_callHook .start .clean _), called, .starts []⟩
  | meets looks ends =>
    exact advances_leave (noted _) (getElem?_noteSeen hc) (still _) starting rfl (.inl rfl)
  | fails looks ends =>
    exact advances_leave (noted _) (getElem?_noteSeen hc) (still _) starting rfl (.inr rfl)
  | hooks inside _ | flinches inside => cases gated.symm.trans inside

/-! ### A cycle on its course -/

/-- Cycle `i` of the resource in place `p` does not have to wait up to a deadline beyond every
clock: the resource needs nothing, the startup timeout is shorter, or the cycle was told to end. -/
def IsWithinClocks (S : Setup) (i p : Nat) (s : State) : Prop :=
  S.needs p = [] ∨ S.settings.startupTimeout.isBeyondClocks = false ∨ s.IsToldToEnd i

/-- Cycle `i` is in a hook that panics while it is called. -/
def Flinches (i : Nat) (s : State) : Prop :=
  ∃ c : Cycle, s.cycles[i]? = some c ∧ c.stage.Flinches

/-- Cycle `i` has made these beats, which lead to where it stands, and the resource in place `p`,
which was in a status before, is where they leave it. -/
structure RunsCourse (i p : Nat) (first : Status) (done : List Beat) (s : State) : Prop where
  cycle : ∃ c : Cycle, s.cycles[i]? = some c ∧ c.place = p ∧ Cycle.IsCourse c.stage done
  lifecycle : ∃ l, s.lifecycle? p = some l ∧ l.status = Beat.leaves first done
  begun : ∀ target, .moves target ∈ done → target ≠ .notStarted

/-- A cycle that has begun has started its resource. -/
theorem RunsCourse.ne_notStarted {first : Status} (h : RunsCourse i p first done s)
    (hc : s.cycles[i]? = some c) (begun : c.stage ≠ .fresh) (hl : s.lifecycle? p = some l) :
    l.status ≠ .notStarted := by
  obtain ⟨⟨d, hd, -, course⟩, ⟨k, hk, status⟩, moves⟩ := h
  cases hc.symm.trans hd
  cases hl.symm.trans hk
  obtain ⟨rest, rfl⟩ := course.exists_rest begun
  have started : Beat.leaves .starting rest ≠ .notStarted :=
    Beat.leaves_of_moves (P := (· ≠ .notStarted)) nofun
      fun target mem ↦ moves target (List.mem_cons_of_mem _ mem)
  exact status ▸ started

/-- **A step of a cycle keeps it on its course.** -/
theorem RunsCourse.step {first : Status} (h : RunsCourse i p first done s)
    (may : first.allows .starting = true) (within : s.IsWithinClocks S i p)
    (steady : ¬ s.Flinches i) :
    ∃ more, (s.step S (.cycle i)).beats i = s.beats i ++ more ∧
      RunsCourse i p first (done ++ more) (s.step S (.cycle i)) := by
  obtain ⟨⟨c, hc, rfl, course⟩, ⟨l, hl, status⟩, begun⟩ := id h
  have advances : Advances i c done s (s.step S (.cycle i)) := by
    cases stage : c.stage with
    | fresh =>
      rw [stage] at course
      cases course
      obtain ⟨makes, here⟩ := begins_of_fresh (S := S) hc stage hl (status ▸ may)
      exact ⟨_, _, makes, here, .gated⟩
    | gated wait? =>
      rw [stage] at course
      cases course
      refine advances_gated hc stage hl status (within.imp_right (Or.imp_right fun told ↦ ?_))
      obtain ⟨d, hd, cancelled⟩ := told
      cases hc.symm.trans hd
      exact cancelled
    | inside hook acts wake exit =>
      rw [stage] at course
      exact advances_hook hc stage (fun flinches ↦ steady ⟨c, hc, flinches⟩) course hl status
        (h.ne_notStarted hc (by rw [stage]; nofun) hl)
    | finished =>
      rw [step_finished hc stage]
      exact ⟨[], c.stage, .of_eq rfl rfl, hc, by rw [List.append_nil]; exact course⟩
  obtain ⟨more, stage, makes, hc', course'⟩ := advances
  obtain ⟨l', hl', status'⟩ := makes.status l hl
  refine ⟨more, makes.beats, ⟨_, hc', rfl, course'⟩, ⟨l', hl', ?_⟩, fun target mem ↦ ?_⟩
  · rw [status', status, Beat.leaves_append]
  · exact (List.mem_append.1 mem).elim (begun target) (makes.begun target)

/-- Whoever leaves the cycle where it stands and the resource in its status keeps it on its
course. -/
theorem RunsCourse.congr {first : Status} (h : RunsCourse i p first done s)
    (cycle : ∀ c, s.cycles[i]? = some c →
      ∃ c', t.cycles[i]? = some c' ∧ c'.place = c.place ∧ c'.stage = c.stage)
    (status : t.ensemble.status? p = s.ensemble.status? p) : RunsCourse i p first done t := by
  obtain ⟨⟨c, hc, place, course⟩, ⟨l, hl, leaves⟩, begun⟩ := h
  obtain ⟨c', hc', place', stage⟩ := cycle c hc
  refine ⟨⟨c', hc', place'.trans place, stage ▸ course⟩, ?_, begun⟩
  have before : s.ensemble.status? p = some l.status := congrArg (Option.map Lifecycle.status) hl
  obtain ⟨l', hl', same⟩ := Option.map_eq_some_iff.1 (status.trans before)
  exact ⟨l', hl', same.trans leaves⟩

end State

/-! ### A cycle that goes on alone -/

/-- A step in which nobody but cycle `i` marks the resource in place `p`, and the host does not give
the cycle up; and the beats that the cycle makes in it. -/
inductive LoneStep (S : Setup) (i p : Nat) (s : State) : List Beat → State → Prop where
  | own {more : List Beat} (enabled : s.isEnabled (.cycle i) = true)
      (beats : (s.step S (.cycle i)).beats i = s.beats i ++ more) :
      LoneStep S i p s more (s.step S (.cycle i))
  | other {t : State} (h : Step S (fun _ ↦ True) s t)
      (status : t.ensemble.status? p = s.ensemble.status? p)
      (stage : (t.cycles[i]?).map (·.stage) = (s.cycles[i]?).map (·.stage)) :
      LoneStep S i p s [] t

/-- A run of such steps, and the beats that the cycle makes in it. -/
inductive LoneRun (S : Setup) (i p : Nat) (b : State) : List Beat → State → Prop where
  | refl : LoneRun S i p b [] b
  | step {done more : List Beat} {s t : State} (before : LoneRun S i p b done s)
      (last : LoneStep S i p s more t) : LoneRun S i p b (done ++ more) t

section Lone

variable {S : Setup} {i p : Nat} {b s t : State} {done more : List Beat} {first : Status}

theorem LoneStep.step (h : LoneStep S i p s more t) : Step S (fun _ ↦ True) s t := by
  cases h with
  | own enabled beats => exact .turn _ enabled
  | other h status stage => exact h

theorem LoneStep.isWithinClocks (h : LoneStep S i p s more t) (ho : s.IsOrderly)
    (within : s.IsWithinClocks S i p) : t.IsWithinClocks S i p :=
  within.imp_right (Or.imp_right (h.step.isToldToEnd ho))

/-- **One step of a lone cycle keeps it on its course.** -/
theorem LoneStep.runsCourse (h : LoneStep S i p s more t) (ho : s.IsOrderly)
    (may : first.allows .starting = true) (within : s.IsWithinClocks S i p)
    (steady : ¬ s.Flinches i) (runs : State.RunsCourse i p first done s) :
    State.RunsCourse i p first (done ++ more) t := by
  cases h with
  | own enabled beats =>
    obtain ⟨more', beats', runs'⟩ := runs.step may within steady
    rw [List.append_cancel_left (beats.symm.trans beats')]
    exact runs'
  | other h status stage =>
    rw [List.append_nil]
    refine runs.congr (fun c hc ↦ ?_) status
    obtain ⟨who, chain⟩ := h.changes ho
    obtain ⟨c', hc', place⟩ := chain.place hc
    rw [hc, hc'] at stage
    exact ⟨c', hc', place, Option.some.inj stage⟩

/-- **In a run a lone cycle keeps to its course**, unless it has come to a hook that panics while it
is called. -/
theorem LoneRun.runsCourse_or_flinches (h : LoneRun S i p b done s) (ho : b.IsOrderly)
    (may : first.allows .starting = true) (within : b.IsWithinClocks S i p)
    (begins : State.RunsCourse i p first [] b) : State.RunsCourse i p first done s ∨
      ∃ done s, LoneRun S i p b done s ∧ State.RunsCourse i p first done s ∧ s.Flinches i := by
  have kept : (s.IsOrderly ∧ s.IsWithinClocks S i p) ∧ (State.RunsCourse i p first done s ∨
      ∃ done s, LoneRun S i p b done s ∧ State.RunsCourse i p first done s ∧ s.Flinches i) := by
    induction h with
    | refl => exact ⟨⟨ho, within⟩, .inl begins⟩
    | @step done more s t before last ih =>
      obtain ⟨⟨ho, within⟩, runs⟩ := ih
      refine ⟨⟨last.step.isOrderly ho, last.isWithinClocks ho within⟩, ?_⟩
      -- Once such a hook was come to the course may be lost, so that moment is kept.
      rcases runs with runs | flinched
      · by_cases flinches : s.Flinches i
        · exact .inr ⟨done, s, before, runs, flinches⟩
        · exact .inl (last.runsCourse ho may within flinches runs)
      · exact .inr flinched
  exact kept.2

end Lone

end Supervision
