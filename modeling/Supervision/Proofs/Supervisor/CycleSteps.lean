import Supervision.Proofs.Supervisor.Entries
import Supervision.Proofs.Supervisor.Views

/-!
# What a cycle does in a step

A step of a cycle is one of a few things, by where the cycle stands (`CycleStep`): it begins, it
looks at what its resource depends on and waits, calls the start hook or ends, or it goes on in a
hook (`HookStep`). What is to be shown of a step is shown of these.

* `State.cycleStep_step`, `State.hookStep_doAct`, `State.actStep_doAct` — a step is one of them.
-/

namespace Supervision

/-- What the resource in a place depends on, by places. -/
def Setup.needs (S : Setup) (place : Nat) : List Nat :=
  ((S.posts[place]?).map (·.needs)).getD []

theorem Setup.exists_post_of_mem_needs {S : Setup} {p q : Nat} (h : p ∈ S.needs q) :
    ∃ post, S.posts[q]? = some post ∧ p ∈ post.needs := by
  unfold needs at h
  cases hq : S.posts[q]? with
  | none =>
    rw [hq] at h
    cases h
  | some post =>
    rw [hq] at h
    exact ⟨post, rfl, h⟩

namespace State

/-- It is noted what cycle `i` has seen ready, if it has seen anything. -/
def noteSeen (i : Nat) (seen : List Nat) (s : State) : State :=
  if seen.isEmpty then s else s.enter (.sawReady (.cycle i) seen)

/-- What cycle `i` sees ready when it looks after a wait. -/
def sights (before : Wait) (s : State) : List Nat :=
  before.newlyReady (s.ensemble.look s.now before)

/-- What a cycle that stands as `c` waits for before it looks. -/
inductive Awaits (S : Setup) (c : Cycle) (s : State) : Wait → Prop where
  /-- It looks for the first time. -/
  | first (gated : c.stage = .gated none)
      (near : S.needs c.place = [] ∨ S.settings.startupTimeout.isBeyondClocks = false) :
      Awaits S c s (.start s.now S.settings.startupTimeout (S.needs c.place))
  | again {w : Wait} (gated : c.stage = .gated (some w)) : Awaits S c s w

/-- An act of a hook of the resource in a place, apart from what it means for the hook itself. -/
inductive HookAct (place : Nat) (a : Act) (s : State) : State → Prop where
  | idle : HookAct place a s s
  | mark {m : Mark} {t : State} (h : s.mark place m = .ok t) (act : a = .mark m) :
      HookAct place a s t
  | note (text : String) : HookAct place a s (s.enter (.noted place text))
  | request {c : Cause} (text : String) (act : a = .request c) :
      HookAct place a s ((s.request c).2.enter (.noted place text))

/-- What can come of the next act of a hook in cycle `i`, which stands as `c`. -/
inductive ActStep (S : Setup) (i : Nat) (c : Cycle) (hook : Hook) (a : Act) (rest : List Act)
    (wake : Option Nat) (exit : Exit) (s : State) : State → Prop where
  | stays : ActStep S i c hook a rest wake exit s s
  /-- The hook lies down to sleep. -/
  | lies {ms : Nat} (positive : ms ≠ 0) (awake : wake = none) (act : a = .sleep ms ∨ a = .wait ms) :
      ActStep S i c hook a rest wake exit s
        (s.setCycle i (.inside hook (a :: rest) (some (s.now + ms)) exit))
  /-- The act is done, and the hook goes on. -/
  | passes {t : State} (h : HookAct c.place a s t) :
      ActStep S i c hook a rest wake exit s (t.setCycle i (.inside hook rest none exit))
  /-- The act ends the hook. -/
  | leaves (result : Exit) :
      ActStep S i c hook a rest wake exit s (s.leaveHook S i c.place hook result exit)
  /-- The hook panics while it is called, and the cycle breaks off. -/
  | flinches {p : Payload} (act : a = .flinch p) :
      ActStep S i c hook a rest wake exit s
        ((s.setCycle i .finished).enter (.flinched i hook p.message))

/-- What can come of a step of cycle `i` in a hook, with the acts left. -/
inductive HookStep (S : Setup) (i place : Nat) (hook : Hook) (acts : List Act) (exit : Exit)
    (s : State) : State → Prop where
  | rests : HookStep S i place hook acts exit s s
  /-- It stays in the hook. -/
  | acts {a : Act} {t : State} (left : List Act) (wake : Option Nat) (h : HookAct place a s t)
      (first : a ∈ acts) (fewer : ∀ b ∈ left, b ∈ acts) :
      HookStep S i place hook acts exit s (t.setCycle i (.inside hook left wake exit))
  /-- The start hook has ended in good order, and the resource is served. -/
  | serves {t : State} (first : hook = .start)
      (h : (s.enter (.returned i hook .clean)).mark place .running = .ok t) :
      HookStep S i place hook acts exit s (t.callHook S i place .serve .clean)
  /-- The stop hook comes next. -/
  | stops (result before : Exit) (more : hook ≠ .stop) :
      HookStep S i place hook acts exit s
        ((s.enter (.returned i hook result)).callHook S i place .stop before)
  /-- The stop hook has ended, and the resource is settled. -/
  | settles (result : Exit) (last : hook = .stop) :
      HookStep S i place hook acts exit s
        (((s.enter (.returned i hook result)).settle place exit).endCycle i)

/-- What can come of a step of cycle `i`, which stands as `c`. -/
inductive CycleStep (S : Setup) (i : Nat) (c : Cycle) (s : State) : State → Prop where
  | rests (h : c.stage = .finished) : CycleStep S i c s s
  /-- Its resource may not start now, and the cycle ends at once. -/
  | turnsAway {e : IllegalMove} (fresh : c.stage = .fresh)
      (h : s.mark c.place .starting = .error e) : CycleStep S i c s (s.endCycle i)
  /-- Its resource starts. -/
  | begins {t : State} (fresh : c.stage = .fresh) (h : s.mark c.place .starting = .ok t) :
      CycleStep S i c s (t.setCycle i (.gated none))
  /-- It was told to end while it waits. -/
  | obeys {wait? : Option Wait} (gated : c.stage = .gated wait?) (told : c.cancelled = true) :
      CycleStep S i c s ((s.tryMark c.place .stopped).endCycle i)
  /-- The deadline lies beyond every clock. -/
  | breaks (gated : c.stage = .gated none)
      (far : S.settings.startupTimeout.isBeyondClocks = true) (waits : S.needs c.place ≠ []) :
      CycleStep S i c s ((s.setCycle i .finished).enter (.broke (.cycle i) deadlineOverflow))
  /-- It looks, and goes on waiting. -/
  | waits {before : Wait} (looks : Awaits S c s before)
      (h : (s.ensemble.look s.now before).result? = none) :
      CycleStep S i c s ((s.noteSeen i (s.sights before)).setCycle i
        (.gated (some (s.ensemble.look s.now before))))
  /-- It has seen everything ready. -/
  | starts {before : Wait} (looks : Awaits S c s before)
      (h : (s.ensemble.look s.now before).result? = some .ready) :
      CycleStep S i c s ((s.noteSeen i (s.sights before)).callHook S i c.place .start .clean)
  /-- It meets the shutdown. -/
  | meets {before : Wait} (looks : Awaits S c s before)
      (h : (s.ensemble.look s.now before).result? = some .shutdown) :
      CycleStep S i c s
        (((s.noteSeen i (s.sights before)).tryMark c.place .stopped).endCycle i)
  /-- Some of what it waits for was not ready in time. -/
  | fails {before : Wait} {late : List Nat} (looks : Awaits S c s before)
      (h : (s.ensemble.look s.now before).result? = some (.timedOut late)) :
      CycleStep S i c s
        (((s.noteSeen i (s.sights before)).tryMark c.place
          (.failed (Pending.failure (s.ensemble.pending late)))).endCycle i)
  /-- It is in a hook. -/
  | hooks {hook : Hook} {acts : List Act} {wake : Option Nat} {exit : Exit} {t : State}
      (inside : c.stage = .inside hook acts wake exit)
      (h : HookStep S i c.place hook acts exit s t) : CycleStep S i c s t
  /-- Its hook panics while it is called, and it breaks off. -/
  | flinches {hook : Hook} {p : Payload} {rest : List Act} {wake : Option Nat} {exit : Exit}
      (inside : c.stage = .inside hook (.flinch p :: rest) wake exit) :
      CycleStep S i c s ((s.setCycle i .finished).enter (.flinched i hook p.message))

variable {S : Setup} {i : Nat} {c : Cycle} {s t : State}

theorem Awaits.isGated {before : Wait} (h : Awaits S c s before) :
    ∃ wait? : Option Wait, c.stage = .gated wait? := by
  cases h with
  | first gated near => exact ⟨_, gated⟩
  | again gated => exact ⟨_, gated⟩

theorem ensemble_noteSeen (i : Nat) (seen : List Nat) (s : State) :
    (s.noteSeen i seen).ensemble = s.ensemble := by
  unfold noteSeen
  split <;> rfl

theorem hookStep_leaveHook (S : Setup) (i place : Nat) (hook : Hook) (acts : List Act)
    (result exit : Exit) (s : State) :
    HookStep S i place hook acts exit s (s.leaveHook S i place hook result exit) := by
  unfold leaveHook
  cases hook with
  | start =>
    dsimp only
    split
    · rename_i clean
      subst clean
      split
      · exact .serves rfl ‹_›
      · exact .stops _ _ (by nofun)
    · exact .stops _ _ (by nofun)
  | serve => exact .stops _ _ (by nofun)
  | stop => exact .settles _ rfl

theorem actStep_sleepIn {hook : Hook} {a : Act} {rest : List Act} {ms : Nat} {wake : Option Nat}
    {exit : Exit} (act : a = .sleep ms ∨ a = .wait ms) :
    ActStep S i c hook a rest wake exit s (s.sleepIn i hook a rest ms wake exit) := by
  unfold sleepIn
  split <;> split
  · exact .passes .idle
  · exact .lies ‹_› rfl act
  · exact .passes .idle
  · exact .stays

/-- **An act leaves its hook as it is, lets it sleep or go on, or ends it.** -/
theorem actStep_doAct (S : Setup) (i : Nat) (c : Cycle) (hook : Hook) (a : Act) (rest : List Act)
    (wake : Option Nat) (exit : Exit) (s : State) :
    ActStep S i c hook a rest wake exit s (s.doAct S i c hook a rest wake exit) := by
  unfold doAct
  cases a with
  | sleep ms => exact actStep_sleepIn (.inl rfl)
  | wait ms =>
    dsimp only
    split
    · exact .leaves _
    · exact actStep_sleepIn (.inr rfl)
  | untilCancelled =>
    dsimp only
    split
    · exact .passes .idle
    · exact .stays
  | hang => exact .stays
  | giveUp e => exact .leaves _
  | panic p => exact .leaves _
  | flinch p => exact .flinches rfl
  | mark m =>
    dsimp only
    split
    · exact .passes (.mark ‹_› rfl)
    · exact .passes (.note _)
  | request cause => exact .passes (.request _ rfl)
  | note text => exact .passes (.note text)

theorem hookStep_doAct (c : Cycle) (hook : Hook) {a : Act} (steady : a.isFlinch = false)
    (rest : List Act) (wake : Option Nat) (exit : Exit) (s : State) :
    HookStep S i c.place hook (a :: rest) exit s (s.doAct S i c hook a rest wake exit) := by
  have step := actStep_doAct S i c hook a rest wake exit s
  generalize s.doAct S i c hook a rest wake exit = t at step
  cases step with
  | stays => exact .rests
  | lies positive awake act => exact .acts (a :: rest) _ .idle List.mem_cons_self fun b hb ↦ hb
  | passes act =>
    exact .acts rest none act List.mem_cons_self fun b hb ↦ List.mem_cons_of_mem a hb
  | leaves result => exact hookStep_leaveHook S i c.place hook _ _ exit s
  | flinches act =>
    rw [act] at steady
    cases steady

theorem cycleStep_doAct {hook : Hook} {a : Act} {rest : List Act} {wake : Option Nat} {exit : Exit}
    (inside : c.stage = .inside hook (a :: rest) wake exit) :
    CycleStep S i c s (s.doAct S i c hook a rest wake exit) := by
  cases a with
  | flinch p => exact .flinches inside
  | _ => exact .hooks inside (hookStep_doAct c hook rfl rest wake exit s)

theorem cycleStep_lookIn {before : Wait} (looks : Awaits S c s before) :
    CycleStep S i c s (s.lookIn S i c.place before) := by
  have pending : ∀ late, (s.noteSeen i (s.sights before)).ensemble.pending late
      = s.ensemble.pending late := fun late ↦ by rw [ensemble_noteSeen]
  unfold lookIn
  dsimp only
  split
  · exact .waits looks ‹_›
  · exact .starts looks ‹_›
  · exact .meets looks ‹_›
  · rename_i late h
    have fails := CycleStep.fails (i := i) looks h
    rw [← pending] at fails
    exact fails

/-- **A step of a cycle is one of these.** -/
theorem cycleStep_step (hc : s.cycles[i]? = some c) : CycleStep S i c s (s.step S (.cycle i)) := by
  show CycleStep S i c s (s.stepCycle S i)
  unfold stepCycle
  rw [hc]
  dsimp only
  split
  · rename_i fresh
    split
    · exact .begins fresh ‹_›
    · exact .turnsAway fresh ‹_›
  · rename_i wait? gated
    split
    · exact .obeys gated ‹_›
    · split
      · exact cycleStep_lookIn (.again gated)
      · have needs : ((S.posts[c.place]?).map (·.needs)).getD [] = S.needs c.place := rfl
        rw [needs]
        split
        · rename_i far
          obtain ⟨waits, far⟩ := Bool.and_eq_true_iff.1 far
          refine .breaks gated far fun none ↦ ?_
          rw [none] at waits
          cases waits
        · rename_i near
          refine cycleStep_lookIn (.first gated ?_)
          cases empty : (S.needs c.place).isEmpty with
          | true => exact .inl (List.isEmpty_iff.1 empty)
          | false =>
            rw [empty] at near
            exact .inr (Bool.eq_false_iff.2 near)
  · exact .hooks ‹_› (hookStep_leaveHook S i c.place _ _ _ _ s)
  · exact cycleStep_doAct ‹_›
  · exact .rests ‹_›

/-- The first step of a cycle is the move of its resource to starting, if that may be. -/
theorem step_fresh (hc : s.cycles[i]? = some c) (fresh : c.stage = .fresh) :
    (∃ t, s.mark c.place .starting = .ok t ∧
      s.step S (.cycle i) = t.setCycle i (.gated none)) ∨
      ∃ e, s.mark c.place .starting = .error e ∧ s.step S (.cycle i) = s.endCycle i := by
  show (∃ t, _ ∧ s.stepCycle S i = _) ∨ ∃ e, _ ∧ s.stepCycle S i = _
  unfold stepCycle
  rw [hc]
  dsimp only
  rw [fresh]
  dsimp only
  cases s.mark c.place .starting with
  | ok t => exact .inl ⟨t, rfl, rfl⟩
  | error e => exact .inr ⟨e, rfl, rfl⟩

/-- A cycle that has ended does nothing. -/
theorem step_finished (hc : s.cycles[i]? = some c) (isOver : c.stage = .finished) :
    s.step S (.cycle i) = s := by
  show s.stepCycle S i = s
  unfold stepCycle
  rw [hc]
  dsimp only
  rw [isOver]

/-! ### What a hook is called with -/

/-- What the hooks of a cycle of the resource in a place may do. -/
inductive IsBehaviourAt (S : Setup) (place : Nat) : Behaviour → Prop where
  | nobody : IsBehaviourAt S place {}
  | post {p : Post} (h : S.posts[place]? = some p) (n : Nat) :
      IsBehaviourAt S place (p.behaviour n)

/-- What holds of every act of a hook of the resource holds of every act of a cycle's: a place where
nobody is has no acts. -/
theorem IsBehaviourAt.acts {place : Nat} {hook : Hook} {b : Behaviour} {P : Act → Prop}
    (h : IsBehaviourAt S place b)
    (posts : ∀ post, S.posts[place]? = some post → ∀ n, ∀ a ∈ (post.behaviour n).script hook, P a) :
    ∀ a ∈ b.script hook, P a := by
  cases h with
  | nobody => cases hook <;> exact fun _ h ↦ absurd h List.not_mem_nil
  | post hp n => exact posts _ hp n

/-- A call of a hook is counted, puts the cycle into the hook and is noted; nothing else. -/
theorem callHook_eq (S : Setup) (i place : Nat) (hook : Hook) (exit : Exit) (s : State) :
    ∃ b members, IsBehaviourAt S place b ∧ s.callHook S i place hook exit =
      (({ s with members := members }).setCycle i (.inside hook (b.script hook) none exit)).enter
        (.called i hook) := by
  have one : ∀ n,
      IsBehaviourAt S place (((S.posts[place]?).map fun p ↦ p.behaviour n).getD {}) := by
    intro n
    cases h : S.posts[place]? with
    | none => exact .nobody
    | some p => exact .post h n
  unfold callHook
  by_cases first : hook = .start
  · simp only [first, if_true]
    exact ⟨_, (s.modifyMember place fun m ↦ { m with starts := m.starts + 1 }).members, one _, rfl⟩
  · simp only [first, if_false]
    exact ⟨_, s.members, one _, rfl⟩

/-! ### What a step leaves alone -/

theorem lifecycle?_mark_of_ne {place q : Nat} {m : Mark} (h : s.mark place m = .ok t)
    (ne : q ≠ place) : t.lifecycle? q = s.lifecycle? q := by
  rcases mark_cases h with ⟨-, rfl⟩ | ⟨l, l', published, -, -, rfl⟩
  · rfl
  · rw [publishAll_eq]
    exact Array.getElem?_setIfInBounds_ne ne.symm

theorem lifecycle?_tryMark_of_ne {place q : Nat} (m : Mark) (ne : q ≠ place) :
    (s.tryMark place m).lifecycle? q = s.lifecycle? q := by
  unfold tryMark
  split
  · exact lifecycle?_mark_of_ne ‹_› ne
  · rfl

theorem lifecycle?_request (c : Cause) (q : Nat) :
    (s.request c).2.lifecycle? q = s.lifecycle? q := by
  rw [request_eq, publishAll_eq]
  rfl

/-- A hook changes nothing of other cycles and other resources. -/
theorem HookStep.frame {place : Nat} {hook : Hook} {acts : List Act} {exit : Exit}
    (h : HookStep S i place hook acts exit s t) :
    (∀ k, k ≠ i → t.cycles[k]? = s.cycles[k]?) ∧
      ∀ q, q ≠ place → t.lifecycle? q = s.lifecycle? q := by
  cases h with
  | rests => exact ⟨fun _ _ ↦ rfl, fun _ _ ↦ rfl⟩
  | @acts a u left wake h first fewer =>
    have kept : u.cycles = s.cycles ∧ ∀ q, q ≠ place → u.lifecycle? q = s.lifecycle? q := by
      cases h with
      | idle => exact ⟨rfl, fun _ _ ↦ rfl⟩
      | mark hm act => exact ⟨cycles_of_mark hm, fun q ne ↦ lifecycle?_mark_of_ne hm ne⟩
      | note text => exact ⟨rfl, fun _ _ ↦ rfl⟩
      | @request c text act =>
        have cycles : (s.request c).2.cycles = s.cycles := by rw [request_frame]
        exact ⟨cycles, fun q _ ↦ lifecycle?_request c q⟩
    refine ⟨fun k ne ↦ ?_, kept.2⟩
    rw [getElem?_setCycle_of_ne _ ne, kept.1]
  | @serves u first hm =>
    obtain ⟨b, members, -, e⟩ := callHook_eq S i place .serve .clean u
    rw [e]
    refine ⟨fun k ne ↦ ?_, fun q ne ↦ ?_⟩
    · exact (getElem?_setCycle_of_ne _ ne).trans (by rw [cycles_of_mark hm]; rfl)
    · have kept : u.lifecycle? q = (s.enter (.returned i hook .clean)).lifecycle? q :=
        lifecycle?_mark_of_ne hm ne
      exact kept
  | stops result before more =>
    obtain ⟨b, members, -, e⟩ := callHook_eq S i place .stop before
      (s.enter (.returned i hook result))
    rw [e]
    exact ⟨fun k ne ↦ getElem?_setCycle_of_ne _ ne, fun _ _ ↦ rfl⟩
  | settles result last =>
    have settled : ∀ u : State, ((u.settle place exit).cycles = u.cycles ∧
        ∀ q, q ≠ place → (u.settle place exit).lifecycle? q = u.lifecycle? q) := by
      intro u
      refine ⟨cycles_settle place exit u, fun q ne ↦ ?_⟩
      unfold settle
      split
      · rfl
      · exact lifecycle?_tryMark_of_ne _ ne
    refine ⟨fun k ne ↦ ?_, fun q ne ↦ (settled _).2 q ne⟩
    exact (getElem?_setCycle_of_ne _ ne).trans (by rw [(settled _).1]; rfl)

theorem cycles_noteSeen (i : Nat) (seen : List Nat) (s : State) :
    (s.noteSeen i seen).cycles = s.cycles := by
  unfold noteSeen
  split <;> rfl

/-- A step of a cycle changes nothing of other cycles and other resources. -/
theorem CycleStep.frame (h : CycleStep S i c s t) :
    (∀ k, k ≠ i → t.cycles[k]? = s.cycles[k]?) ∧
      ∀ q, q ≠ c.place → t.lifecycle? q = s.lifecycle? q := by
  have noted : ∀ {q : Nat} (seen : List Nat),
      (s.noteSeen i seen).lifecycle? q = s.lifecycle? q := by
    intro q seen
    unfold lifecycle?
    rw [ensemble_noteSeen]
  -- A mark of its own resource, and the end.
  have ends : ∀ (u : State) (m : Mark), u.cycles = s.cycles →
      (∀ q, u.lifecycle? q = s.lifecycle? q) →
      (∀ k, k ≠ i → ((u.tryMark c.place m).endCycle i).cycles[k]? = s.cycles[k]?) ∧
        ∀ q, q ≠ c.place → ((u.tryMark c.place m).endCycle i).lifecycle? q = s.lifecycle? q := by
    intro u m cycles lifecycles
    refine ⟨fun k ne ↦ ?_, fun q ne ↦ (lifecycle?_tryMark_of_ne m ne).trans (lifecycles q)⟩
    exact (getElem?_setCycle_of_ne _ ne).trans (by rw [cycles_tryMark, cycles])
  cases h with
  | rests h => exact ⟨fun _ _ ↦ rfl, fun _ _ ↦ rfl⟩
  | turnsAway fresh h => exact ⟨fun k ne ↦ getElem?_setCycle_of_ne _ ne, fun _ _ ↦ rfl⟩
  | @begins u fresh hm =>
    refine ⟨fun k ne ↦ ?_, fun q ne ↦ ?_⟩
    · rw [getElem?_setCycle_of_ne _ ne, cycles_of_mark hm]
    · have kept : u.lifecycle? q = s.lifecycle? q := lifecycle?_mark_of_ne hm ne
      exact kept
  | obeys gated told => exact ends s _ rfl fun _ ↦ rfl
  | breaks gated far => exact ⟨fun k ne ↦ getElem?_setCycle_of_ne _ ne, fun _ _ ↦ rfl⟩
  | waits looks h =>
    refine ⟨fun k ne ↦ ?_, fun q _ ↦ noted _⟩
    rw [getElem?_setCycle_of_ne _ ne, cycles_noteSeen]
  | @starts before looks h =>
    obtain ⟨b, members, -, e⟩ := callHook_eq S i c.place .start .clean
      (s.noteSeen i (s.sights before))
    rw [e]
    refine ⟨fun k ne ↦ ?_, fun q _ ↦ noted _⟩
    exact (getElem?_setCycle_of_ne _ ne).trans (by rw [cycles_noteSeen])
  | meets looks h => exact ends _ _ (cycles_noteSeen i _ s) fun _ ↦ noted _
  | fails looks h => exact ends _ _ (cycles_noteSeen i _ s) fun _ ↦ noted _
  | hooks inside h => exact h.frame
  | flinches inside => exact ⟨fun k ne ↦ getElem?_setCycle_of_ne _ ne, fun _ _ ↦ rfl⟩

/-! ### Where a step leaves the cycle -/

theorem getElem?_endCycle_self (hc : s.cycles[i]? = some c) :
    (s.endCycle i).cycles[i]? = some { c with stage := .finished } :=
  getElem?_setCycle_self .finished hc

/-- It leaves its resource in a status, if that may be, and ends. -/
theorem getElem?_leave (place : Nat) (m : Mark) (hc : s.cycles[i]? = some c) :
    ((s.tryMark place m).endCycle i).cycles[i]? = some { c with stage := .finished } := by
  refine getElem?_endCycle_self ?_
  rw [cycles_tryMark]
  exact hc

theorem getElem?_noteSeen {k : Nat} {seen : List Nat} (hc : s.cycles[k]? = some c) :
    (s.noteSeen i seen).cycles[k]? = some c := by
  rw [cycles_noteSeen]
  exact hc

theorem getElem?_callHook_self (place : Nat) (hook : Hook) (exit : Exit)
    (hc : s.cycles[i]? = some c) : ∃ b, IsBehaviourAt S place b ∧
      (s.callHook S i place hook exit).cycles[i]?
        = some { c with stage := .inside hook (b.script hook) none exit } := by
  obtain ⟨b, members, hb, e⟩ := callHook_eq S i place hook exit s
  rw [e]
  exact ⟨b, hb, getElem?_setCycle_self (s := { s with members := members }) _ hc⟩

/-- At the end of a hook a later one is called, or the cycle ends. -/
theorem getElem?_leaveHook (place : Nat) (hook : Hook) (result exit : Exit)
    (hc : s.cycles[i]? = some c) : ∃ stage,
      (s.leaveHook S i place hook result exit).cycles[i]? = some { c with stage := stage } ∧
        (hook = .stop ∧ stage = .finished ∨
          ∃ b next before, IsBehaviourAt S place b ∧
            stage = .inside next (b.script next) none before ∧
              (hook = .start ∧ next = .serve ∨ hook ≠ .stop ∧ next = .stop)) := by
  have returned : (s.enter (.returned i hook result)).cycles[i]? = some c := hc
  have stops : ∀ before, hook ≠ .stop → ∃ stage,
      ((s.enter (.returned i hook result)).callHook S i place .stop before).cycles[i]?
        = some { c with stage := stage } ∧
        (hook = .stop ∧ stage = .finished ∨
          ∃ b next before, IsBehaviourAt S place b ∧
            stage = .inside next (b.script next) none before ∧
              (hook = .start ∧ next = .serve ∨ hook ≠ .stop ∧ next = .stop)) := by
    intro before more
    obtain ⟨b, hb, called⟩ := getElem?_callHook_self (S := S) place .stop before returned
    exact ⟨_, called, .inr ⟨b, .stop, before, hb, rfl, .inr ⟨more, rfl⟩⟩⟩
  unfold leaveHook
  cases hook with
  | start =>
    dsimp only
    split
    · split
      · obtain ⟨b, hb, called⟩ := getElem?_callHook_self (S := S) place .serve .clean
          (by rw [cycles_of_mark ‹_›]; exact returned)
        exact ⟨_, called, .inr ⟨b, .serve, .clean, hb, rfl, .inl ⟨rfl, rfl⟩⟩⟩
      · exact stops .clean nofun
    · exact stops result nofun
  | serve => exact stops result nofun
  | stop =>
    refine ⟨_, getElem?_endCycle_self ?_, .inl ⟨rfl, rfl⟩⟩
    rw [cycles_settle]
    exact returned

theorem HookAct.cycles {place : Nat} {a : Act} (h : HookAct place a s t) :
    t.cycles = s.cycles := by
  cases h with
  | idle => rfl
  | mark hm act => exact cycles_of_mark hm
  | note text => rfl
  | @request c text act =>
    have kept : (s.request c).2.cycles = s.cycles := by rw [request_frame]
    exact kept

/-- A cycle in a hook stays in one, or ends. -/
theorem HookStep.cycle {place : Nat} {hook : Hook} {acts : List Act} {wake : Option Nat}
    {exit : Exit} (h : HookStep S i place hook acts exit s t) (hc : s.cycles[i]? = some c)
    (inside : c.stage = .inside hook acts wake exit) :
    ∃ c', t.cycles[i]? = some c' ∧ c'.place = c.place ∧
      ((∃ hook acts wake exit, c'.stage = .inside hook acts wake exit) ∨ c'.stage = .finished) := by
  cases h with
  | rests => exact ⟨c, hc, rfl, .inl ⟨_, _, _, _, inside⟩⟩
  | @acts a u left wake act first fewer =>
    have hu : u.cycles[i]? = some c := act.cycles ▸ hc
    exact ⟨_, getElem?_setCycle_self _ hu, rfl, .inl ⟨_, _, _, _, rfl⟩⟩
  | @serves u first hm =>
    have hu : u.cycles[i]? = some c := by
      rw [cycles_of_mark hm]
      exact hc
    obtain ⟨b, -, called⟩ := getElem?_callHook_self (S := S) place .serve .clean hu
    exact ⟨_, called, rfl, .inl ⟨_, _, _, _, rfl⟩⟩
  | stops result before more =>
    obtain ⟨b, -, called⟩ := getElem?_callHook_self (S := S) place .stop before
      (s := s.enter (.returned i hook result)) hc
    exact ⟨_, called, rfl, .inl ⟨_, _, _, _, rfl⟩⟩
  | settles result last =>
    have settled : ((s.enter (.returned i hook result)).settle place exit).cycles[i]? = some c := by
      rw [cycles_settle]
      exact hc
    exact ⟨_, getElem?_endCycle_self settled, rfl, .inr rfl⟩

end State

end Supervision
