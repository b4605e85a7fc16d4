import Supervision.Proofs.Supervisor.Deadline
import Supervision.Proofs.Supervisor.Delivery
import Supervision.Settings.Supervisor

/-!
# Settings beyond every clock

Settings that can be read may still be too wide for the run. The channel of a bus refuses half of
all counts, and it needs memory for its ring, which is the machine's and not the program's. A grace whose deadline lies beyond every clock breaks the host when it
begins to stop, after it has taken the current cycles and before it has told any of them to end. A
startup timeout of that size breaks every cycle that has something to wait for. No other setting
breaks the host or a cycle. A hook that panics while it is called breaks its cycle off as well, but
whatever the settings are, and that is told apart (`Happening.flinched`).

* `CycleStep.broken`, `State.broken_stepHost` — when a step breaks.
* `settings_break_iff` — which settings break what, in some run.
* `wide_settings_break` — settings that can be read and break each of them.
-/

namespace Supervision

/-! ### Who has broken -/

/-- The task that has panicked over a setting. -/
def Happening.breaker? : Happening → Option Task
  | .broke t _ => some t
  | _ => none

theorem Happening.IsBy.breaker {who : Option Task} {h : Happening} (own : h.IsBy who) {t : Task}
    (broke : h.breaker? = some t) : who = some t := by
  cases h with
  | broke k message =>
    cases broke
    exact own
  | _ => cases broke

namespace State

variable {S : Setup} {s t u : State} {i : Nat} {c : Cycle}

/-- The tasks that have panicked over a setting, in order. -/
def broken (s : State) : List Task := s.view fun x ↦ x.what.breaker?

theorem broken_of_chronicle (h : t.chronicle = s.chronicle) : t.broken = s.broken :=
  view_of_chronicle h

theorem broken_enter (h : Happening) (s : State) :
    (s.enter h).broken = s.broken ++ h.breaker?.toList :=
  view_enter _ h s

theorem broken_enter_of_whole {h : Happening} (whole : h.breaker? = none) :
    (s.enter h).broken = s.broken := by
  rw [broken_enter, whole]
  exact List.append_nil _

/-- What is entered by somebody tells of nobody else that has panicked. -/
theorem Enters.mem_broken {who : Option Task} (h : Enters (s.IsEntryOf who) s t) {k : Task}
    (hk : k ∈ t.broken) : k ∈ s.broken ∨ who = some k := by
  obtain ⟨more, chronicle, such⟩ := h
  unfold broken view at hk ⊢
  rw [chronicle, Array.toList_append, List.filterMap_append] at hk
  rcases List.mem_append.1 hk with old | new
  · exact .inl old
  · obtain ⟨x, hx, broke⟩ := List.mem_filterMap.1 new
    exact .inr ((such x hx).2.breaker broke)

/-- What anybody may enter tells of nobody that has panicked. -/
theorem Enters.broken (h : Enters (s.IsEntryOf none) s t) : t.broken = s.broken := by
  refine h.view_eq fun x hx ↦ Option.eq_none_iff_forall_not_mem.2 fun k broke ↦ ?_
  cases hx.2.breaker broke

theorem broken_mark {place : Nat} {m : Mark} (h : s.mark place m = .ok t) :
    t.broken = s.broken :=
  (enters_mark h).broken

theorem broken_tryMark (place : Nat) (m : Mark) (s : State) :
    (s.tryMark place m).broken = s.broken := by
  unfold tryMark
  split
  · exact broken_mark ‹_›
  · rfl

theorem broken_request (c : Cause) (s : State) : (s.request c).2.broken = s.broken :=
  (enters_request c s).broken

/-! ### Cycles -/

theorem broken_noteSeen (i : Nat) (seen : List Nat) (s : State) :
    (s.noteSeen i seen).broken = s.broken := by
  unfold noteSeen
  split
  · rfl
  · exact broken_enter_of_whole rfl

theorem broken_callHook (i place : Nat) (hook : Hook) (exit : Exit) (s : State) :
    (s.callHook S i place hook exit).broken = s.broken := by
  obtain ⟨b, members, -, e⟩ := callHook_eq S i place hook exit s
  rw [e, broken_enter_of_whole rfl]
  exact broken_of_chronicle rfl

theorem broken_endCycle (i : Nat) (s : State) : (s.endCycle i).broken = s.broken :=
  (broken_enter_of_whole rfl).trans (broken_of_chronicle rfl)

/-- A hook breaks nothing. -/
theorem HookStep.broken {place : Nat} {hook : Hook} {acts : List Act} {exit : Exit}
    (h : HookStep S i place hook acts exit s t) : t.broken = s.broken := by
  have returned : ∀ result, (s.enter (.returned i hook result)).broken = s.broken :=
    fun _ ↦ broken_enter_of_whole rfl
  cases h with
  | rests => rfl
  | @acts a u left wake act first fewer =>
    have kept : u.broken = s.broken := by
      cases act with
      | idle => rfl
      | mark hm _ => exact broken_mark hm
      | note text => exact broken_enter_of_whole rfl
      | request text _ => exact (broken_enter_of_whole rfl).trans (broken_request _ s)
    exact (broken_of_chronicle rfl).trans kept
  | serves first hm => exact (broken_callHook ..).trans ((broken_mark hm).trans (returned _))
  | stops result before more => exact (broken_callHook ..).trans (returned _)
  | settles result last =>
    refine (broken_endCycle ..).trans (Eq.trans ?_ (returned result))
    unfold settle
    split
    · rfl
    · exact broken_tryMark ..

/-- **A cycle breaks over a setting only when it has something to wait for, and its deadline is
beyond every clock.** -/
theorem CycleStep.broken (h : CycleStep S i c s t) :
    t.broken = s.broken ∨
      (S.settings.startupTimeout.isBeyondClocks = true ∧ S.needs c.place ≠ [] ∧
        t.broken = s.broken ++ [.cycle i]) := by
  have leaves : ∀ (seen : List Nat) (m : Mark),
      ((((s.noteSeen i seen).tryMark c.place m).endCycle i).broken = s.broken) := fun seen m ↦
    (broken_endCycle ..).trans ((broken_tryMark ..).trans (broken_noteSeen i seen s))
  cases h with
  | rests isOver => exact .inl rfl
  | turnsAway fresh hm => exact .inl (broken_endCycle i s)
  | @begins u fresh hm =>
    have put : (u.setCycle i (.gated none)).broken = u.broken := broken_of_chronicle rfl
    exact .inl (put.trans (broken_mark hm))
  | obeys gated told => exact .inl ((broken_endCycle ..).trans (broken_tryMark ..))
  | breaks gated far waits =>
    have put : (s.setCycle i .finished).broken = s.broken := broken_of_chronicle rfl
    exact .inr ⟨far, waits, by rw [broken_enter, put]; rfl⟩
  | waits looks going => exact .inl ((broken_of_chronicle rfl).trans (broken_noteSeen i _ s))
  | starts looks ready => exact .inl ((broken_callHook ..).trans (broken_noteSeen i _ s))
  | meets looks ends => exact .inl (leaves _ _)
  | fails looks ends => exact .inl (leaves _ _)
  | hooks inside step => exact .inl step.broken
  | flinches inside => exact .inl ((broken_enter_of_whole rfl).trans (broken_of_chronicle rfl))

/-! ### The host -/

theorem broken_startCycles (places : List Nat) (s : State) :
    (places.foldl (fun s place ↦ s.startCycle place) s).broken = s.broken := by
  induction places generalizing s with
  | nil => rfl
  | cons place rest ih =>
    refine (ih (s.startCycle place)).trans ?_
    exact (broken_enter_of_whole rfl).trans (broken_of_chronicle rfl)

theorem broken_beginRun (S : Setup) (s : State) : (s.beginRun S).broken = s.broken := by
  unfold beginRun
  dsimp only
  refine (broken_of_chronicle rfl).trans ((broken_startCycles _ _).trans ?_)
  refine (broken_enter_of_whole rfl).trans ((broken_of_chronicle rfl).trans ?_)
  split
  · exact (broken_enter_of_whole rfl).trans (broken_of_chronicle rfl)
  · rfl

theorem broken_stopFrom (run : Shutting) (deadline : Nat) (told : Bool) (left : List (Nat × Nat))
    (s : State) : (s.stopFrom S run deadline told left).broken = s.broken := by
  have step := stopStep_stopFrom S run deadline told left s
  generalize s.stopFrom S run deadline told left = t at step ⊢
  induction step with
  | ends run _ s =>
    have said : (s.enter (.stopped run.stuck)).broken = s.broken := broken_enter_of_whole rfl
    unfold endStopping
    refine (broken_of_chronicle rfl).trans ((broken_enter_of_whole rfl).trans ?_)
    exact (broken_of_chronicle rfl).trans said
  | tells _ ih => exact ih.trans ((broken_enter_of_whole rfl).trans (broken_of_chronicle rfl))
  | skips _ _ ih => exact ih
  | aborts _ _ _ ih =>
    exact ih.trans ((broken_enter_of_whole rfl).trans (broken_of_chronicle rfl))
  | waits => exact broken_of_chronicle rfl

/-- A stop breaks exactly when its deadline lies beyond every clock. -/
theorem broken_beginStop (watcher : Nat) (hasRelay : Bool) (s : State) :
    (s.beginStop S watcher hasRelay).broken =
      s.broken ++ if S.settings.grace.isBeyondClocks = true then [.host] else [] := by
  have heard : s.hear.broken = s.broken := by
    unfold hear
    split
    · rfl
    · exact broken_request _ s
  have closed : s.hear.close.broken = s.broken := (broken_of_chronicle rfl).trans heard
  cases far : S.settings.grace.isBeyondClocks with
  | true =>
    rw [beginStop_of_far far, broken_enter]
    exact congrArg (· ++ _) ((broken_of_chronicle rfl).trans closed)
  | false =>
    rw [beginStop_of_near far, broken_stopFrom, closed, if_neg Bool.false_ne_true,
      List.append_nil]

/-- **The host breaks only when it begins to stop under a deadline beyond every clock.** -/
theorem broken_stepHost (S : Setup) (s : State) :
    (s.stepHost S).broken = s.broken ∨
      (S.settings.grace.isBeyondClocks = true ∧ (s.stepHost S).broken = s.broken ++ [.host]) := by
  have concludes : ∀ run, (s.conclude S run).broken = s.broken := by
    intro run
    unfold conclude
    dsimp only
    split
    · rfl
    · split <;> rfl
  have closes : ∀ result ending, (s.stepClosing S result ending).broken = s.broken := by
    have ends : ∀ (t : State) result, (t.endRun result).broken = t.broken := fun t result ↦
      (broken_enter_of_whole rfl).trans (broken_of_chronicle rfl)
    have closed : ∀ e, (s.closeSession S e).2.broken = s.broken := by
      intro e
      unfold closeSession
      split <;> rfl
    intro result ending
    cases ending with
    | none => exact ends s result
    | some e => exact (ends _ _).trans (closed e)
  unfold stepHost
  split
  · exact .inl rfl
  · exact .inl rfl
  · exact .inl (broken_beginRun S s)
  · split
    · rw [broken_beginStop]
      split
      · exact .inr ⟨‹_›, rfl⟩
      · exact .inl (List.append_nil _)
    · exact .inl rfl
  · exact .inl (broken_stopFrom ..)
  · split
    · split
      · exact .inl rfl
      · exact .inl (concludes _)
    · exact .inl rfl
  · split
    · exact .inl (concludes _)
    · exact .inl rfl
  · split
    · exact .inl (closes _ _)
    · exact .inl rfl

/-! ### Every run -/

/-- Of the host and the cycles, nobody has broken but over a deadline beyond every clock. -/
structure BrokenByClocks (S : Setup) (s : State) : Prop where
  host : .host ∈ s.broken → S.settings.grace.isBeyondClocks = true
  cycle : ∀ i, .cycle i ∈ s.broken → S.settings.startupTimeout.isBeyondClocks = true ∧
    ∃ c : Cycle, s.cycles[i]? = some c ∧ S.needs c.place ≠ []

end State

section Run

variable {S : Setup} {admits : Deed → Prop} {who : Option Task} {s s' : State} {p : Nat}

theorem Change.mem_broken (h : Change S admits who s s') {k : Task} (hk : k ∈ s'.broken) :
    k ∈ s.broken ∨ who = some k := by
  rcases h.enters_or with own | ⟨e, -, rfl⟩
  · exact own.mem_broken hk
  · have said : (s.publish e).broken = s.broken :=
      (State.broken_enter_of_whole rfl).trans (State.broken_of_chronicle rfl)
    exact .inl (said ▸ hk)

theorem Changes.mem_broken (h : Changes S admits who s s') {k : Task} (hk : k ∈ s'.broken) :
    k ∈ s.broken ∨ who = some k := by
  induction h with
  | refl => exact .inl hk
  | tail _ last ih => exact (last.mem_broken hk).elim ih .inr

/-- **Nothing but the clocks breaks the host or a cycle.** -/
theorem Step.brokenByClocks (h : Step S admits s s') (ho : s.IsOrderly)
    (hs : s.BrokenByClocks S) : s'.BrokenByClocks S := by
  have old : ∀ i, .cycle i ∈ s.broken → S.settings.startupTimeout.isBeyondClocks = true ∧
      ∃ c : Cycle, s'.cycles[i]? = some c ∧ S.needs c.place ≠ [] := by
    intro i hi
    obtain ⟨far, c, hc, waits⟩ := hs.cycle i hi
    obtain ⟨who, chain⟩ := h.changes ho
    obtain ⟨c', hc', place⟩ := chain.place hc
    exact ⟨far, c', hc', place ▸ waits⟩
  have same : s'.broken = s.broken → s'.BrokenByClocks S := fun e ↦
    ⟨fun hh ↦ hs.host (e ▸ hh), fun i hi ↦ old i (e ▸ hi)⟩
  rcases h.turn_or_changes ho (fun t ↦ t = .host ∨ ∃ k, t = .cycle k) with
    ⟨t, rfl | ⟨k, rfl⟩, rfl⟩ | ⟨who, other, chain⟩
  · rcases State.broken_stepHost S s with e | ⟨far, e⟩
    · exact same e
    · refine ⟨fun _ ↦ far, fun i hi ↦ old i ?_⟩
      exact (List.mem_append.1 (e ▸ hi)).resolve_right (by simp)
  · cases hc : s.cycles[k]? with
    | none => exact same (congrArg State.broken (State.step_cycle_of_none hc))
    | some c =>
      rcases (State.cycleStep_step (S := S) hc).broken with e | ⟨far, waits, e⟩
      · exact same e
      · refine ⟨fun hh ↦ hs.host ((List.mem_append.1 (e ▸ hh)).resolve_right (by simp)), ?_⟩
        intro i hi
        rcases List.mem_append.1 (e ▸ hi) with hi | hi
        · exact old i hi
        · cases List.mem_singleton.1 hi
          obtain ⟨who, chain⟩ := h.changes ho
          obtain ⟨c', hc', place⟩ := chain.place hc
          exact ⟨far, c', hc', place ▸ waits⟩
  · refine ⟨fun hh ↦ hs.host ?_, fun i hi ↦ old i ?_⟩
    · exact (chain.mem_broken hh).resolve_right (other _ (.inl rfl))
    · exact (chain.mem_broken hi).resolve_right (other _ (.inr ⟨i, rfl⟩))

theorem Reaches.brokenByClocks {bus : Bus} {recorder : Option Recorder} {now : Nat}
    (run : Reaches S admits (State.initial S bus recorder now) s) : s.BrokenByClocks S := by
  refine (run.keeps (P := fun s ↦ s.IsOrderly ∧ s.BrokenByClocks S)
    (fun ⟨ho, hs⟩ step ↦ ⟨step.isOrderly ho, step.brokenByClocks ho hs⟩)
    ⟨State.isOrderly_initial S bus recorder now, ?_⟩).2
  exact ⟨fun none ↦ absurd none List.not_mem_nil, fun i none ↦ absurd none List.not_mem_nil⟩

end Run

/-! ### Runs that break -/

section Breaking

variable {S : Setup} {bus : Bus} {recorder : Option Recorder} {now p : Nat}

namespace State

theorem cycles_startCycles (places : List Nat) (s : State) :
    (places.foldl (fun s place ↦ s.startCycle place) s).cycles =
      s.cycles ++ (places.map fun p ↦ ({ place := p } : Cycle)).toArray := by
  induction places generalizing s with
  | nil => exact Array.append_empty.symm
  | cons place rest ih =>
    have one : (s.startCycle place).cycles = s.cycles.push { place := place } := rfl
    rw [List.foldl_cons, ih, one]
    simp

theorem cycles_beginRun (S : Setup) (s : State) :
    (s.beginRun S).cycles = s.cycles ++
      ((List.range S.posts.size).map fun p ↦ ({ place := p } : Cycle)).toArray := by
  unfold beginRun
  dsimp only
  rw [cycles_startCycles]
  split <;> rfl

/-- The first run has been asked for and has begun. -/
def begun (S : Setup) (bus : Bus) (recorder : Option Recorder) (now : Nat) : State :=
  ((initial S bus recorder now).undergo .call).stepHost S

theorem reaches_begun :
    Reaches S (fun _ ↦ True) (initial S bus recorder now) (begun S bus recorder now) :=
  .step (.step (.refl _) (.deed .call trivial)) (.turn .host rfl)

theorem begun_eq : begun S bus recorder now =
    ((initial S bus recorder now).undergo .call).beginRun S := rfl

/-- **A grace beyond every clock breaks the host** as soon as a run is told to end. -/
theorem exists_broken_host (far : S.settings.grace.isBeyondClocks = true) :
    ∃ s, Reaches S (fun _ ↦ True) (initial S bus recorder now) s ∧ .host ∈ s.broken := by
  have serving : (begun S bus recorder now).host = .serving 0 true := by
    rw [begun_eq, (beginRun_frame ..).2.2.2]
    rfl
  have signalled : Reaches S (fun _ ↦ True) (initial S bus recorder now)
      ((begun S bus recorder now).undergo .signal) := reaches_begun.step (.deed .signal trivial)
  generalize hs : (begun S bus recorder now).undergo .signal = s at signalled
  have host : s.host = .serving 0 true := by
    rw [← hs]
    exact serving
  have heard : s.signalled = true := by
    rw [← hs]
    rfl
  have enabled : s.isEnabled .host = true := isEnabled_of_serving host (.inr heard)
  refine ⟨_, signalled.step (.turn .host enabled), ?_⟩
  show _ ∈ (s.stepHost S).broken
  rw [stepHost_of_serving host (.inr heard), broken_beginStop, if_pos far]
  exact List.mem_append_right _ List.mem_cons_self

theorem cycle_begun (here : p < S.posts.size) :
    (begun S bus recorder now).cycles[p]? = some { place := p } := by
  have none : ((initial S bus recorder now).undergo .call).cycles = #[] := rfl
  rw [begun_eq, cycles_beginRun, none]
  simp [here]

theorem ensemble_begun :
    (begun S bus recorder now).ensemble = (initial S bus recorder now).ensemble := by
  rw [begun_eq, (beginRun_frame ..).2.2.1]
  rfl

/-- Nothing has started yet, so everything may. -/
theorem exists_mark_begun (p : Nat) :
    ∃ t, (begun S bus recorder now).mark p .starting = .ok t := by
  cases hm : (begun S bus recorder now).mark p .starting with
  | ok t => exact ⟨t, rfl⟩
  | error e =>
    obtain ⟨l, target, hl, ht, illegal⟩ := not_allows_of_mark hm
    have new : (initial S bus recorder now).lifecycle? p = some l := by
      unfold lifecycle?
      rw [← ensemble_begun]
      exact hl
    obtain ⟨name, rfl⟩ := lifecycle?_initial new
    cases ht
    cases illegal

/-- A cycle that has begun breaks when it has to wait beyond every clock. -/
theorem step_gated_of_far {s : State} {i : Nat}
    (far : S.settings.startupTimeout.isBeyondClocks = true) (waits : S.needs p ≠ [])
    (gated : s.cycles[i]? = some { place := p, stage := .gated none }) :
    s.step S (.cycle i) = (s.setCycle i .finished).enter (.broke (.cycle i) deadlineOverflow) := by
  have some : ((S.posts[p]?).map (·.needs)).getD [] ≠ [] := waits
  show s.stepCycle S i = _
  unfold stepCycle
  rw [gated]
  dsimp only
  rw [if_neg Bool.false_ne_true, if_pos]
  rw [far, Bool.and_true, Bool.not_eq_true']
  exact List.isEmpty_eq_false_iff.2 some

theorem isEnabled_of_fresh {s : State} {i : Nat} {c : Cycle} (hc : s.cycles[i]? = some c)
    (fresh : c.stage = .fresh ∨ c.stage = .gated none) : s.isEnabled (.cycle i) = true := by
  show s.cycleIsEnabled i = true
  unfold cycleIsEnabled
  rw [hc]
  rcases fresh with fresh | gated
  · dsimp only
    rw [fresh]
  · dsimp only
    rw [gated]

/-- **A startup timeout beyond every clock breaks a cycle of every resource that waits for
another.** -/
theorem exists_broken_cycle (far : S.settings.startupTimeout.isBeyondClocks = true)
    (waits : S.needs p ≠ []) :
    ∃ s i c, Reaches S (fun _ ↦ True) (initial S bus recorder now) s ∧
      s.cycles[i]? = some c ∧ c.place = p ∧ .cycle i ∈ s.broken := by
  have here : p < S.posts.size := by
    obtain ⟨q, hq⟩ := List.exists_mem_of_ne_nil _ waits
    obtain ⟨post, hp, -⟩ := Setup.exists_post_of_mem_needs hq
    exact (Array.getElem?_eq_some_iff.1 hp).1
  have first : (begun S bus recorder now).cycles[p]? = some { place := p } := cycle_begun here
  have once := reaches_begun.step (.turn (S := S) (.cycle p) (isEnabled_of_fresh first (.inl rfl)))
  obtain ⟨t, moved, gated⟩ : ∃ t : State, (begun S bus recorder now).step S (.cycle p) = t ∧
      t.cycles[p]? = some { place := p, stage := .gated none } := by
    obtain ⟨t, hm⟩ : ∃ t, (begun S bus recorder now).mark p .starting = .ok t :=
      exists_mark_begun p
    rcases step_fresh (S := S) first rfl with ⟨u, hu, moved⟩ | ⟨e, refused, -⟩
    · exact ⟨_, moved, getElem?_setCycle_self _ (by rw [cycles_of_mark hu, first])⟩
    · rw [hm] at refused
      cases refused
  rw [moved] at once
  refine ⟨_, p, { place := p, stage := .finished },
    once.step (.turn (.cycle p) (isEnabled_of_fresh gated (.inr rfl))), ?_, rfl, ?_⟩
  · rw [step_gated_of_far far waits gated]
    exact getElem?_setCycle_self _ gated
  · rw [step_gated_of_far far waits gated, broken_enter]
    exact List.mem_append_right _ List.mem_cons_self

end State

/-- **Which settings break what.** Whatever the resources and the rest of the settings: the channel
of the bus panics over its capacity exactly when that is half of all counts or more, and otherwise
the bus can be made as far as there is memory for its ring; the host breaks in some run exactly when
the grace lies beyond every clock, and a cycle of a resource exactly when the startup timeout does
and the resource depends on another. -/
theorem settings_break_iff (S : Setup) :
    (∀ memory,
      (Bus.ofCapacity? S.settings.busRoom memory = .error .beyondCounts ↔
        UInt64.size / 2 ≤ S.settings.busCapacity) ∧
      ((∃ bus, Bus.ofCapacity? S.settings.busRoom memory = .ok bus) ↔
        Bus.roundUp S.settings.busRoom ≤ min memory Bus.addressable)) ∧
    ∀ (bus : Bus) (recorder : Option Recorder) (now : Nat),
      ((∃ s, Reaches S (fun _ ↦ True) (State.initial S bus recorder now) s ∧ .host ∈ s.broken) ↔
        S.settings.grace.isBeyondClocks = true) ∧
      ∀ p, (∃ s i c, Reaches S (fun _ ↦ True) (State.initial S bus recorder now) s ∧
          s.cycles[i]? = some c ∧ c.place = p ∧ .cycle i ∈ s.broken) ↔
        S.settings.startupTimeout.isBeyondClocks = true ∧ S.needs p ≠ [] := by
  refine ⟨fun memory ↦ ⟨?_, Bus.exists_ofCapacity?_eq_ok_iff⟩,
    fun bus recorder now ↦ ⟨⟨?_, State.exists_broken_host⟩, fun p ↦ ⟨?_, ?_⟩⟩⟩
  · rw [Bus.ofCapacity?_eq_beyondCounts_iff, Settings.busRoom]
    have half : 1 < UInt64.size / 2 := by decide
    omega
  · rintro ⟨s, run, broke⟩
    exact run.brokenByClocks.host broke
  · rintro ⟨s, i, c, run, hc, rfl, broke⟩
    obtain ⟨far, c', hc', waits⟩ := run.brokenByClocks.cycle i broke
    rw [hc] at hc'
    cases hc'
    exact ⟨far, waits⟩
  · exact fun ⟨far, waits⟩ ↦ State.exists_broken_cycle far waits

end Breaking

/-- What is read from a text, when it is such. -/
theorem exists_read_of_any (text : String) {P : Settings → Bool}
    (h : (Settings.ofText text).toOption.any P = true) :
    ∃ settings, Settings.ofText text = .ok settings ∧ P settings = true := by
  cases read : Settings.ofText text with
  | error e =>
    rw [read] at h
    cases h
  | ok settings =>
    rw [read] at h
    exact ⟨settings, rfl, h⟩

/-- **Settings that can be read can break the bus, the host and a cycle.** -/
theorem wide_settings_break :
    (∃ settings, Settings.ofText "\x7b\"bus_capacity\": 9223372036854775808\x7d" = .ok settings ∧
      ∀ memory, Bus.ofCapacity? settings.busRoom memory = .error .beyondCounts) ∧
    (∃ S : Setup, Settings.ofText "\x7b\"grace\": 1e19\x7d" = .ok S.settings ∧
      ∃ s, Reaches S (fun _ ↦ True) (State.atRest S) s ∧ .host ∈ s.broken) ∧
    ∃ S : Setup, Settings.ofText "\x7b\"startup_timeout\": 1e19\x7d" = .ok S.settings ∧
      ∃ s i, Reaches S (fun _ ↦ True) (State.atRest S) s ∧ .cycle i ∈ s.broken := by
  refine ⟨?_, ?_, ?_⟩
  · obtain ⟨settings, read, wide⟩ := exists_read_of_any
      "\x7b\"bus_capacity\": 9223372036854775808\x7d" (P := (·.busCapacity = 9223372036854775808))
      (by decide +kernel)
    refine ⟨settings, read, fun memory ↦ Bus.ofCapacity?_eq_beyondCounts_iff.2 ?_⟩
    rw [Settings.busRoom, of_decide_eq_true wide]
    decide
  · obtain ⟨settings, read, far⟩ := exists_read_of_any "\x7b\"grace\": 1e19\x7d"
      (P := (·.grace.isBeyondClocks)) (by decide +kernel)
    exact ⟨⟨settings, #[], #[], none, fun _ ↦ 0, fun ms ↦ .ofMicros (ms * 1000)⟩, read,
      State.exists_broken_host far⟩
  · obtain ⟨settings, read, far⟩ := exists_read_of_any
      "\x7b\"startup_timeout\": 1e19\x7d" (P := (·.startupTimeout.isBeyondClocks))
      (by decide +kernel)
    let S : Setup := {
      settings := settings
      posts := #[{ name := "db", needs := [], behaviour := fun _ ↦ {} },
        { name := "api", needs := [0], behaviour := fun _ ↦ {} }] }
    have waits : S.needs 1 ≠ [] := List.cons_ne_nil 0 []
    obtain ⟨s, i, c, run, -, -, broke⟩ := State.exists_broken_cycle far waits
    exact ⟨S, read, s, i, run, broke⟩

end Supervision
