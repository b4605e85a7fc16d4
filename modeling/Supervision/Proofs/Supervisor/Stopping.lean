import Supervision.Proofs.Supervisor.Balance
import Supervision.Proofs.Supervisor.Schedule

/-!
# What a stop says, and whether it is true

When the shutdown is due, the host takes the current cycles, and no other, and stops them one after
the other. In the end it says that all have stopped, or whose cycles it gave up. Of the cycles that
it took this is always true (`stop_outcome`). A cycle that was not current when the stop began is
not looked for: a restart has taken it before, and may still wait for its end. So what the host says
is true exactly when every such cycle has ended by then, or shares its resource with one that was
given up (`stop_isTrue_iff`).

* `State.stopFrom_outcome` — what one step of a stop does.
-/

namespace Supervision

namespace State

variable {S : Setup} {s t : State}

/-! ### Cycles that are over -/

theorem cycleIsOver_cancelCycle (c i : Nat) :
    (s.cancelCycle c).cycleIsOver i = s.cycleIsOver i := by
  unfold cycleIsOver
  rw [getElem?_cancelCycle]
  split
  · cases s.cycles[i]? <;> rfl
  · rfl

theorem cycleIsOver_abortCycle_self (c : Nat) : (s.abortCycle c).cycleIsOver c = true := by
  refine cycleIsOver_iff.2 fun b hb ↦ ?_
  rcases setCycle_cases hb with ⟨ne, -⟩ | ⟨-, b', -, rfl⟩
  · exact absurd rfl ne
  · rfl

theorem cycleIsOver_abortCycle_of_ne {c i : Nat} (h : i ≠ c) :
    (s.abortCycle c).cycleIsOver i = s.cycleIsOver i := by
  unfold cycleIsOver
  rw [show (s.abortCycle c).cycles[i]? = s.cycles[i]? from getElem?_setCycle_of_ne .finished h]

/-! ### One step of a stop -/

theorem mem_currentCycles {p i : Nat} : (p, i) ∈ s.currentCycles ↔ s.run? p = some i := by
  unfold currentCycles run?
  simp only [List.mem_reverse, List.mem_filterMap, List.mem_range, Option.map_eq_some_iff,
    Prod.mk.injEq]
  constructor
  · rintro ⟨q, -, j, hj, rfl, rfl⟩
    exact hj
  · intro hi
    obtain ⟨m, hm, -⟩ := Option.bind_eq_some_iff.1 hi
    exact ⟨p, (Array.getElem?_eq_some_iff.1 hm).1, i, hi, rfl, rfl⟩

/-- What one step of a stop comes to: it waits for one of the cycles that were left, all before it
being over; or it ends, with every cycle that it gave up named. -/
inductive StopOutcome (S : Setup) (run : Shutting) (deadline : Nat) (left : List (Nat × Nat))
    (s : State) : State → Prop where
  | waits {t : State} (later : List (Nat × Nat)) (early : s.now < deadline)
      (host : t.host = .stopping run deadline later) (sub : ∀ x ∈ later, x ∈ left)
      (gone : ∀ x ∈ left, x ∈ later ∨ s.cycleIsOver x.2 = true)
      (same : ∀ i, t.cycleIsOver i = s.cycleIsOver i) :
      StopOutcome S run deadline left s t
  | ends {t : State} (final : Shutting) (host : t.host = .joiningWatcher final)
      (known : ∀ n ∈ run.stuck, n ∈ final.stuck)
      (gone : ∀ x ∈ left, t.cycleIsOver x.2 = true)
      (stays : ∀ i, s.cycleIsOver i = true → t.cycleIsOver i = true)
      (only : ∀ i, t.cycleIsOver i = true → s.cycleIsOver i = true ∨ ∃ p, (p, i) ∈ left)
      (named : ∀ x ∈ left, s.cycleIsOver x.2 = false →
        ∃ p, (p, x.2) ∈ left ∧ S.nameAt p ∈ final.stuck) :
      StopOutcome S run deadline left s t

namespace StopOutcome

variable {u : State} {run : Shutting} {deadline p c : Nat} {left rest : List (Nat × Nat)}

/-- What the stop comes to depends on the moment and on which cycles are over. -/
theorem congr (h : StopOutcome S run deadline left t u) (now : t.now = s.now)
    (same : ∀ i, t.cycleIsOver i = s.cycleIsOver i) : StopOutcome S run deadline left s u := by
  cases h with
  | waits later early host sub passed kept =>
    refine .waits later (now ▸ early) host sub (fun x hx ↦ ?_) fun i ↦ (kept i).trans (same i)
    exact (passed x hx).imp_right fun h ↦ same _ ▸ h
  | ends final host known done stays only named =>
    exact .ends final host known done (fun i hi ↦ stays i ((same i).trans hi))
      (fun i hi ↦ (only i hi).imp_left fun h ↦ same i ▸ h)
      fun x hx going ↦ named x hx ((same _).trans going)

/-- The first cycle is over, and the stop goes on. -/
theorem skip (gone : s.cycleIsOver c = true) (h : StopOutcome S run deadline rest s u) :
    StopOutcome S run deadline ((p, c) :: rest) s u := by
  cases h with
  | waits later early host sub passed kept =>
    refine .waits later early host (fun x hx ↦ List.mem_cons_of_mem _ (sub x hx)) ?_ kept
    intro x hx
    rcases List.mem_cons.1 hx with rfl | hx
    · exact .inr gone
    · exact passed x hx
  | ends final host known done stays only named =>
    refine .ends final host known ?_ stays ?_ ?_
    · intro x hx
      rcases List.mem_cons.1 hx with rfl | hx
      · exact stays _ gone
      · exact done x hx
    · exact fun i hi ↦ (only i hi).imp_right fun ⟨q, hq⟩ ↦ ⟨q, List.mem_cons_of_mem _ hq⟩
    · intro x hx going
      rcases List.mem_cons.1 hx with rfl | hx
      · rw [gone] at going
        cases going
      · obtain ⟨q, hq, hn⟩ := named x hx going
        exact ⟨q, List.mem_cons_of_mem _ hq, hn⟩

/-- The first cycle is given up and named, and nothing is waited for any more. -/
theorem abort (late : deadline ≤ s.now)
    (h : StopOutcome S { run with stuck := run.stuck ++ [S.nameAt p] } deadline rest
      (s.abortCycle c) u) :
    StopOutcome S run deadline ((p, c) :: rest) s u := by
  cases h with
  | waits later early => exact absurd early (Nat.not_lt_of_le late)
  | ends final host known done stays only named =>
    have given : ∀ i, s.cycleIsOver i = true → (s.abortCycle c).cycleIsOver i = true := by
      intro i hi
      by_cases hc : i = c
      · subst hc
        exact cycleIsOver_abortCycle_self i
      · exact (cycleIsOver_abortCycle_of_ne hc).trans hi
    refine .ends final host (fun n hn ↦ known n (List.mem_append_left _ hn)) ?_
      (fun i hi ↦ stays i (given i hi)) ?_ ?_
    · intro x hx
      rcases List.mem_cons.1 hx with rfl | hx
      · exact stays _ (cycleIsOver_abortCycle_self c)
      · exact done x hx
    · intro i hi
      by_cases hc : i = c
      · exact .inr ⟨p, hc ▸ List.mem_cons_self⟩
      · rcases only i hi with hi | ⟨q, hq⟩
        · exact .inl (cycleIsOver_abortCycle_of_ne hc ▸ hi)
        · exact .inr ⟨q, List.mem_cons_of_mem _ hq⟩
    · intro x hx going
      by_cases hc : x.2 = c
      · refine ⟨p, hc ▸ List.mem_cons_self, known _ (List.mem_append_right _ ?_)⟩
        exact List.mem_cons_self
      · rcases List.mem_cons.1 hx with rfl | hx
        · exact absurd rfl hc
        · obtain ⟨q, hq, hn⟩ := named x hx ((cycleIsOver_abortCycle_of_ne hc).trans going)
          exact ⟨q, List.mem_cons_of_mem _ hq, hn⟩

end StopOutcome

theorem stopFrom_outcome (run : Shutting) (deadline : Nat) (told : Bool)
    (left : List (Nat × Nat)) (s : State) :
    StopOutcome S run deadline left s (s.stopFrom S run deadline told left) := by
  have step := stopStep_stopFrom S run deadline told left s
  generalize s.stopFrom S run deadline told left = t at step ⊢
  induction step with
  | ends run _ s =>
    exact .ends run rfl (fun _ h ↦ h) nofun (fun _ h ↦ h) (fun _ h ↦ .inl h) nofun
  | tells _ ih => exact ih.congr rfl (cycleIsOver_cancelCycle _)
  | skips isOver _ ih => exact .skip isOver ih
  | aborts _ late _ ih => exact .abort late ih
  | waits _ early => exact .waits _ early rfl (fun _ h ↦ h) (fun _ h ↦ .inl h) fun _ ↦ rfl

/-- A stop begins with the cycles that are current then. -/
theorem beginStop_outcome {watcher : Nat} {hasRelay : Bool} :
    ((s.beginStop S watcher hasRelay).host = .finished (.panicked deadlineOverflow)) ∨
      ∃ run deadline, run.stuck = [] ∧ StopOutcome S run deadline s.currentCycles s
        (s.beginStop S watcher hasRelay) := by
  cases far : S.settings.grace.isBeyondClocks with
  | true =>
    rw [beginStop_of_far far]
    exact .inl rfl
  | false =>
    have cycles : s.hear.cycles = s.cycles := by rw [hear_frame]
    have now : s.hear.now = s.now := by rw [hear_frame]
    rw [beginStop_of_near far]
    exact .inr ⟨_, _, rfl, (stopFrom_outcome _ _ _ _ _).congr now
      (cycleIsOver_of_cycles (t := s.hear.close) cycles)⟩

end State

/-! ### From the beginning of a stop to its end -/

/-- The stop is over, or there is no run any more. -/
def HostStage.isAfterStop : HostStage → Bool
  | .absent | .joiningWatcher _ | .joiningRelay _ | .closing _ _ | .finished _ => true
  | _ => false

namespace State

/-- A stop that began in `d` goes on: all cycles that were current then are over, but for those that
are left. -/
structure IsDraining (d : State) (run : Shutting) (left : List (Nat × Nat)) (s : State) : Prop where
  clean : run.stuck = []
  taken : ∀ x ∈ left, d.run? x.1 = some x.2
  drained : ∀ p i, d.run? p = some i → s.cycleIsOver i = true ∨ (p, i) ∈ left
  there : ∀ p i, d.run? p = some i → ∃ c : Cycle, s.cycles[i]? = some c ∧ c.place = p
  known : ∀ i, s.cycleIsOver i = false → d.cycleIsOver i = false

/-- A stop that began in `d` goes on or is over. -/
def IsPastBeginning (d s : State) : Prop :=
  s.host.isAfterStop = true ∨
    ∃ run deadline left, s.host = .stopping run deadline left ∧ IsDraining d run left s

variable {S : Setup} {admits : Deed → Prop} {who : Option Task} {d s s' : State} {run : Shutting}
  {left : List (Nat × Nat)}

/-- Where no cycle goes on, none does later, once no cycle is started, or by the host alone. -/
theorem cycleIsOver_of_change (h : Change S admits who s s') (begun : s.host ≠ .fresh)
    (closed : s.stopping = true ∨ who = some .host) {i : Nat} (gone : s.cycleIsOver i = true) :
    s'.cycleIsOver i = true := by
  refine cycleIsOver_iff.2 fun c hc ↦ ?_
  rcases h.cycle_before hc with ⟨b, hb, -⟩ | ⟨-, -, -, ⟨-, fresh⟩ | ⟨j, rfl, starts⟩⟩
  · exact cycleIsOver_iff.1 (h.cycleIsOver hb gone) c hc
  · exact absurd fresh begun
  · rcases closed with closed | other
    · have going := starts.going
      rw [closed] at going
      cases going
    · cases other

theorem IsDraining.change (hd : IsDraining d run left s) (h : Change S admits who s s')
    (begun : s.host ≠ .fresh) (closed : s.stopping = true ∨ who = some .host) :
    IsDraining d run left s' where
  clean := hd.clean
  taken := hd.taken
  drained p i hi := (hd.drained p i hi).imp_left (cycleIsOver_of_change h begun closed)
  there p i hi := by
    obtain ⟨c, hc, rfl⟩ := hd.there p i hi
    obtain ⟨c', hc', place, -⟩ := h.cycle_after hc
    exact ⟨c', hc', place⟩
  known i hi := by
    refine hd.known i (Bool.eq_false_iff.2 fun gone ↦ ?_)
    rw [cycleIsOver_of_change h begun closed gone] at hi
    cases hi

/-- Whatever the host does once its run has begun. -/
theorem IsDraining.changes (hd : IsDraining d run left s)
    (h : Changes S admits (some .host) s s') (begun : s.host ≠ .fresh) :
    IsDraining d run left s' ∧ s'.host ≠ .fresh := by
  induction h with
  | refl => exact ⟨hd, begun⟩
  | tail _ last ih =>
    refine ⟨ih.1.change last ih.2 (.inr rfl), ?_⟩
    rcases last.host with e | ⟨-, fresh, -⟩ | ⟨other, -⟩
    · exact e ▸ ih.2
    · exact fresh
    · cases other

/-- What a step of the host makes of a stop: it goes on, or it ends. -/
theorem StopOutcome.isPastBeginning {deadline : Nat} {t : State}
    (h : StopOutcome S run deadline left s t) (hd : IsDraining d run left s)
    (there : ∀ p i, d.run? p = some i → ∃ c : Cycle, t.cycles[i]? = some c ∧ c.place = p) :
    IsPastBeginning d t := by
  cases h with
  | waits later early host sub passed same =>
    refine .inr ⟨run, deadline, later, host, hd.clean, fun x hx ↦ hd.taken x (sub x hx), ?_, there,
      fun i hi ↦ hd.known i (same i ▸ hi)⟩
    intro p i hi
    rcases hd.drained p i hi with gone | hl
    · exact .inl ((same i).trans gone)
    · rcases passed _ hl with hl | gone
      · exact .inr hl
      · exact .inl ((same i).trans gone)
  | ends final host => exact .inl (by rw [host]; rfl)

theorem isAfterStop_conclude (s : State) : (s.conclude S run).host.isAfterStop = true := by
  unfold conclude
  dsimp only
  split
  · rfl
  · split <;> rfl

theorem isAfterStop_stepHost (h : s.host.isAfterStop = true) :
    (s.stepHost S).host.isAfterStop = true := by
  unfold stepHost
  split
  · exact h
  · exact h
  · rename_i fresh
    rw [fresh] at h
    cases h
  · rename_i serving
    rw [serving] at h
    cases h
  · rename_i stopping
    rw [stopping] at h
    cases h
  · split
    · split
      · rfl
      · exact isAfterStop_conclude s
    · exact h
  · split
    · exact isAfterStop_conclude s
    · exact h
  · rename_i result ending _
    split
    · cases ending <;> rfl
    · exact h

theorem stepHost_of_stopping {deadline : Nat} (stopping : s.host = .stopping run deadline left) :
    s.stepHost S = s.stopFrom S run deadline true left := by
  unfold stepHost
  rw [stopping]

/-- A stop that has begun goes on or is over, whatever happens, as long as nobody asks for another
run. -/
theorem isPastBeginning_step (h : Step S (· ≠ .call) s s') (ho : s.IsOrderly)
    (hp : IsPastBeginning d s) : IsPastBeginning d s' := by
  rcases h.turn_or_changes ho (· = .host) with ⟨_, rfl, rfl⟩ | ⟨who, other, hc⟩
  -- Within a step of the host the list of what is left is out of date, so it is taken as a whole.
  · rcases hp with after | ⟨run, deadline, left, host, hd⟩
    · exact .inl (isAfterStop_stepHost after)
    · have hc : Changes S (fun _ ↦ False) _ s _ := State.changes_stepHost s ho
      have there := (hd.changes hc (by rw [host]; nofun)).1.there
      have outcome := stopFrom_outcome (S := S) run deadline true left s
      rw [← stepHost_of_stopping host] at outcome
      exact outcome.isPastBeginning hd there
  · refine (hc.keeps (P := IsPastBeginning d) (fun {u u'} ordered hu change ↦ ?_) ho hp).2
    rcases change.host with e | ⟨rfl, -⟩ | ⟨-, ⟨-, e⟩ | ⟨called, -⟩⟩
    · rcases hu with after | ⟨run, deadline, left, host, hd⟩
      · exact .inl (e ▸ after)
      · refine .inr ⟨run, deadline, left, e.trans host, hd.change change (by rw [host]; nofun) ?_⟩
        exact .inl (ordered.stopping run deadline left host)
    · exact absurd rfl (other _ rfl)
    · exact .inl (by rw [e]; rfl)
    · exact absurd rfl called

/-! ### What is said at the end -/

/-- One stop, from the moment `d` at which the host begins it to the step from `t` on with which it
ends. Nobody asks for another run in between. -/
structure IsStop (S : Setup) (d t : State) (final : Shutting) : Prop where
  serving : ∃ watcher hasRelay, d.host = .serving watcher hasRelay
  due : d.isRequested = true ∨ d.signalled = true
  during : t = d ∨ Reaches S (· ≠ .call) (d.stepHost S) t ∧
    ∃ run deadline left, t.host = .stopping run deadline left
  ended : (t.stepHost S).host = .joiningWatcher final

/-- What a stop says is true: when it names nobody, no cycle is left after it; and when it names
somebody, then everybody with a cycle that had not ended before its last step. -/
structure IsTrueStop (S : Setup) (t : State) (final : Shutting) : Prop where
  clean : final.stuck = [] → ∀ i, (t.stepHost S).cycleIsOver i = true
  named : final.stuck ≠ [] → ∀ (i : Nat) (c : Cycle), t.cycles[i]? = some c →
    c.stage ≠ .finished → S.nameAt c.place ∈ final.stuck

/-- At its beginning, a stop has all current cycles left. -/
theorem isDraining_currentCycles (fits : d.Fits S) (clean : run.stuck = []) :
    IsDraining d run d.currentCycles d where
  clean := clean
  taken _ hx := mem_currentCycles.1 hx
  drained _ _ hi := .inr (mem_currentCycles.2 hi)
  there := fits.runs
  known _ hi := hi

theorem stepHost_of_serving {watcher : Nat} {hasRelay : Bool}
    (serving : d.host = .serving watcher hasRelay)
    (due : d.isRequested = true ∨ d.signalled = true) :
    d.stepHost S = d.beginStop S watcher hasRelay := by
  have goes : (d.isRequested || d.signalled) = true := by simpa using due
  unfold stepHost
  rw [serving]
  exact if_pos goes

/-- As soon as the shutdown is due, the host can begin it. -/
theorem isEnabled_of_serving {watcher : Nat} {hasRelay : Bool}
    (serving : d.host = .serving watcher hasRelay)
    (due : d.isRequested = true ∨ d.signalled = true) : d.isEnabled .host = true := by
  show d.hostIsEnabled = true
  unfold hostIsEnabled
  rw [serving]
  exact Bool.or_eq_true_iff.2 due

theorem isPastBeginning_stepHost {watcher : Nat} {hasRelay : Bool} (fits : d.Fits S)
    (orderly : d.IsOrderly) (serving : d.host = .serving watcher hasRelay)
    (due : d.isRequested = true ∨ d.signalled = true) :
    IsPastBeginning d (d.stepHost S) := by
  have hc : Changes S (fun _ ↦ False) _ d _ := State.changes_stepHost d orderly
  rw [stepHost_of_serving serving due] at hc ⊢
  rcases beginStop_outcome (S := S) (s := d) with broke | ⟨run, deadline, clean, outcome⟩
  · exact .inl (by rw [broke]; rfl)
  · have draining := isDraining_currentCycles fits clean
    exact outcome.isPastBeginning draining
      (draining.changes hc (by rw [serving]; nofun)).1.there

/-- The last step of a stop ends it with what was left. -/
theorem IsStop.outcome {final : Shutting} {t : State} (stop : IsStop S d t final)
    (fits : d.Fits S) (orderly : d.IsOrderly) :
    ∃ run deadline left, IsDraining d run left t ∧
      StopOutcome S run deadline left t (t.stepHost S) := by
  obtain ⟨watcher, hasRelay, serving⟩ := stop.serving
  rcases stop.during with rfl | ⟨reached, run, deadline, left, host⟩
  · rcases beginStop_outcome (S := S) (s := t) with broke | ⟨run, deadline, clean, outcome⟩
    · have ended := stop.ended
      rw [stepHost_of_serving serving stop.due, broke] at ended
      cases ended
    · rw [stepHost_of_serving serving stop.due]
      exact ⟨run, deadline, _, isDraining_currentCycles fits clean, outcome⟩
  -- The stop took more than one step: what its first step has set up was kept until `t`.
  · have begun := isPastBeginning_stepHost fits orderly serving stop.due
    have hc : Changes S (fun _ ↦ False) _ d _ := State.changes_stepHost d orderly
    have start := (hc.keeps (fun _ _ _ ↦ trivial) orderly (P := fun _ ↦ True) trivial).1
    obtain ⟨-, after | ⟨run', deadline', left', host', draining⟩⟩ := reached.keeps
      (P := fun s ↦ s.IsOrderly ∧ IsPastBeginning d s)
      (fun hP step ↦ ⟨step.isOrderly hP.1, isPastBeginning_step step hP.1 hP.2⟩) ⟨start, begun⟩
    · rw [host] at after
      cases after
    · rw [host] at host'
      cases host'
      refine ⟨run, deadline, left, draining, ?_⟩
      rw [stepHost_of_stopping host]
      exact stopFrom_outcome run deadline true left t

/-- **What a stop makes of the cycles that it took**, and of all others: those that were current
when it began are over after it, and named if they were not over before its last step; no other
cycle ends in that step. -/
theorem stop_outcome {final : Shutting} {t : State} (fits : d.Fits S) (orderly : d.IsOrderly)
    (stop : IsStop S d t final) :
    (∀ (i : Nat) (c : Cycle), t.cycles[i]? = some c → c.stage ≠ .finished →
        (∃ p, d.run? p = some i) → S.nameAt c.place ∈ final.stuck) ∧
      ∀ i, (t.stepHost S).cycleIsOver i = true ↔
        t.cycleIsOver i = true ∨ ∃ p, d.run? p = some i := by
  obtain ⟨run, deadline, left, draining, outcome⟩ := stop.outcome fits orderly
  have ended := stop.ended
  generalize t.stepHost S = u at outcome ended ⊢
  cases outcome with
  | waits later early host => rw [host] at ended; cases ended
  | ends final' host known gone stays only named =>
    rw [host] at ended
    cases ended
    refine ⟨fun i c hc going ⟨p, hp⟩ ↦ ?_, fun i ↦ ⟨fun hi ↦ ?_, ?_⟩⟩
    · have unfinished := cycleIsOver_eq_false hc going
      rcases draining.drained p i hp with gone | hl
      · rw [gone] at unfinished
        cases unfinished
      · obtain ⟨q, hq, hn⟩ := named _ hl unfinished
        obtain ⟨b, hb, rfl⟩ := draining.there q i (draining.taken _ hq)
        rw [hc] at hb
        cases hb
        exact hn
    · exact (only i hi).imp_right fun ⟨p, hp⟩ ↦ ⟨p, draining.taken _ hp⟩
    · rintro (hi | ⟨p, hp⟩)
      · exact stays i hi
      · rcases draining.drained p i hp with hi | hl
        · exact stays i hi
        · exact gone _ hl

/-- What a stop says is true when it names whoever it has missed. -/
theorem isTrueStop_of_named {final : Shutting} {t : State} (fits : d.Fits S)
    (orderly : d.IsOrderly) (stop : IsStop S d t final)
    (missed : ∀ (i : Nat) (c : Cycle), t.cycles[i]? = some c → c.stage ≠ .finished →
      (∀ p, d.run? p ≠ some i) → S.nameAt c.place ∈ final.stuck) : IsTrueStop S t final := by
  obtain ⟨taken, gone⟩ := stop_outcome fits orderly stop
  have all : ∀ (i : Nat) (c : Cycle), t.cycles[i]? = some c → c.stage ≠ .finished →
      S.nameAt c.place ∈ final.stuck := by
    intro i c hc going
    by_cases current : ∃ p, d.run? p = some i
    · exact taken i c hc going current
    · exact missed i c hc going fun p hp ↦ current ⟨p, hp⟩
  refine ⟨fun clean i ↦ (gone i).2 (.inl (cycleIsOver_iff.2 fun c hc ↦ ?_)), fun _ ↦ all⟩
  cases stage : decide (c.stage = .finished) with
  | true => exact of_decide_eq_true stage
  | false =>
    have named := all i c hc (of_decide_eq_false stage)
    rw [clean] at named
    cases named

/-- **What a stop says is true exactly when it has missed nothing**: every cycle that had not ended
before its last step, and that was not current when it began, is of a resource that it names. -/
theorem stop_isTrue_iff {bus : Bus} {recorder : Option Recorder} {now : Nat} {final : Shutting}
    {t : State} (before : Reaches S (fun _ ↦ True) (State.initial S bus recorder now) d)
    (stop : IsStop S d t final) :
    IsTrueStop S t final ↔ ∀ (i : Nat) (c : Cycle), t.cycles[i]? = some c → c.stage ≠ .finished →
      (∀ p, d.run? p ≠ some i) → S.nameAt c.place ∈ final.stuck := by
  obtain ⟨orderly, fits⟩ := before.fits
  constructor
  · intro h i c hc going missed
    by_cases clean : final.stuck = []
    · rcases ((stop_outcome fits orderly stop).2 i).1 (h.clean clean i) with gone | ⟨p, hp⟩
      · exact absurd ((cycleIsOver_iff_of_some hc).1 gone) going
      · exact absurd hp (missed p)
    · exact h.named clean i c hc going
  · exact isTrueStop_of_named fits orderly stop

/-- The shutdown of the obedient resource is asked for while it serves. -/
def obedientAsked : State :=
  ((asked .obedient).stepHost .obedient).play .obedient
    (.replicate 3 (.turn (.cycle 0)) ++ [.deed (.request (.requested "done"))])

/-- The obedient resource was told to end, and has ended. -/
def obedientEnded : State :=
  (obedientAsked.stepHost .obedient).play .obedient (.replicate 3 (.turn (.cycle 0)))

/-- What is said of a resource that ends when it is told to is true. -/
theorem obedient_isTrueStop :
    ∃ final, final.stuck = [] ∧ IsTrueStop .obedient obedientEnded final := by
  have before : Reaches .obedient (fun _ ↦ True) (atRest .obedient) obedientAsked :=
    reaches_play (.step (reaches_asked _ trivial) (.turn .host rfl)) (by decide +kernel)
      fun _ _ ↦ trivial
  have stop : IsStop .obedient obedientAsked obedientEnded
      ⟨0, true, some (.requested "done"), none, none, []⟩ := by
    refine ⟨⟨0, true, by decide +kernel⟩, .inl (by decide +kernel), .inr ⟨?_,
      ⟨0, true, some (.requested "done"), none, none, []⟩, 100, [(0, 0)], by decide +kernel⟩,
      by decide +kernel⟩
    refine reaches_play (.refl _) (by decide +kernel) fun e he call ↦ ?_
    subst call
    exact absurd he (by simp)
  have gone : obedientEnded.cycles = #[⟨0, true, .finished⟩] := by decide +kernel
  refine ⟨_, rfl, (stop_isTrue_iff before stop).2 fun i c hc going ↦ ?_⟩
  rw [gone] at hc
  match i with
  | 0 => cases hc; exact absurd rfl going
  | i + 1 => cases hc

/-- The shutdown is asked for while a restart waits for the stubborn resource to end. -/
def stubbornAsked : State :=
  stubbornFailed.play .stubborn [.turn (.restart 0), .deed (.request (.requested "done"))]

/-- **The host can say that everything has stopped while a cycle goes on**, and will for good. -/
theorem stubborn_isNotTrueStop :
    Reaches .stubborn (fun _ ↦ True) (atRest .stubborn) stubbornAsked ∧
      ∃ final, final.stuck = [] ∧ IsStop .stubborn stubbornAsked stubbornAsked final ∧
        ¬ IsTrueStop .stubborn stubbornAsked final := by
  refine ⟨?_, ⟨0, true, some (.requested "done"), none, none, []⟩, rfl, ?_, fun isTrue ↦ ?_⟩
  · refine reaches_play (reaches_play (.step (reaches_asked _ trivial) (.turn .host rfl))
      (by decide +kernel) fun _ _ ↦ trivial) (by decide +kernel) fun _ _ ↦ trivial
  · exact ⟨⟨0, true, by decide +kernel⟩, .inl (by decide +kernel), .inl rfl, by decide +kernel⟩
  · have gone := isTrue.clean rfl 0
    have goesOn : (stubbornAsked.stepHost .stubborn).cycleIsOver 0 = false := by decide +kernel
    rw [goesOn] at gone
    cases gone

end State

end Supervision
