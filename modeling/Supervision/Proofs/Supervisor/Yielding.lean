import Supervision.Proofs.Supervisor.CycleSteps
import Supervision.Proofs.Supervisor.Deadline

/-!
# Resources that end when they are told to

A resource is obliging when serving it ends at once when its cycle is told to end, and its stop hook
returns at once. `CycleStage.Yields` says what that comes to for a cycle past its start hook: none
of the acts that it has left holds it up then, and it is in no sleep but one that it can be woken
from.
Every cycle of an obliging resource yields at every moment (`Reaches.yields`), so that one which was
told to end can go on until it has ended (`State.cycleIsEnabled_of_yields`).
-/

namespace Supervision

/-- The act does not hold up a hook whose cycle was told to end. The stop hook is left in peace, so
there nothing may wait. -/
def Act.YieldsIn (hook : Hook) : Act → Prop
  | .sleep ms => ms = 0
  | .wait ms => hook ≠ .stop ∨ ms = 0
  | .untilCancelled => hook ≠ .stop
  | .hang | .flinch _ => False
  | .giveUp _ | .panic _ | .mark _ | .request _ | .note _ => True

theorem Act.YieldsIn.isFlinch {hook : Hook} {a : Act} (h : a.YieldsIn hook) :
    a.isFlinch = false := by
  cases a with
  | flinch => exact absurd h id
  | _ => rfl

/-- The resource in a place serves no longer than until it is told to end, and stops at once. -/
def Setup.IsObligingAt (S : Setup) (p : Nat) : Prop :=
  ∀ post, S.posts[p]? = some post → ∀ n hook, hook ≠ .start →
    ∀ a ∈ (post.behaviour n).script hook, a.YieldsIn hook

/-- Past the start hook, no act that is left holds up the cycle once it is told to end, nor does the
sleep it is in. -/
def CycleStage.Yields : CycleStage → Prop
  | .inside hook acts wake _ => hook ≠ .start →
    (∀ a ∈ acts, a.YieldsIn hook) ∧
      (wake.isSome → hook ≠ .stop ∧ ∃ ms rest, acts = .wait ms :: rest)
  | _ => True

namespace State

variable {S : Setup} {i p : Nat} {c : Cycle} {s t : State}

/-! ### What an act makes of its hook -/

/-- Where a cycle can stand after an act with which its hook is not left. -/
inductive Dwells (hook : Hook) (a : Act) (rest : List Act) (wake : Option Nat) (exit : Exit) :
    CycleStage → Prop where
  | passes : Dwells hook a rest wake exit (.inside hook rest none exit)
  | stays : Dwells hook a rest wake exit (.inside hook (a :: rest) wake exit)
  /-- It lies down to sleep. -/
  | lies {ms : Nat} (m : Nat) (positive : ms ≠ 0) (act : a = .sleep ms ∨ a = .wait ms) :
      Dwells hook a rest wake exit (.inside hook (a :: rest) (some m) exit)
  /-- The hook panics while it is called, and the cycle breaks off. -/
  | flinches : Dwells hook a rest wake exit .finished

variable {hook : Hook} {a : Act} {rest : List Act} {wake : Option Nat} {exit : Exit}

theorem Dwells.yields {stage : CycleStage} (h : Dwells hook a rest wake exit stage)
    (yields : (CycleStage.inside hook (a :: rest) wake exit).Yields) : stage.Yields := by
  cases h with
  | passes =>
    intro past
    exact ⟨fun b hb ↦ (yields past).1 b (List.mem_cons_of_mem a hb), fun woken ↦ nomatch woken⟩
  | stays => exact yields
  | @lies ms m positive act =>
    intro past
    have act_yields := (yields past).1 a List.mem_cons_self
    refine ⟨(yields past).1, fun _ ↦ ?_⟩
    rcases act with rfl | rfl
    · exact absurd act_yields positive
    · exact ⟨act_yields.resolve_right positive, ms, rest, rfl⟩
  | flinches => trivial

/-- With an act the hook is left, or the cycle dwells in it. -/
theorem dwells_doAct (hc : s.cycles[i]? = some c)
    (inside : c.stage = .inside hook (a :: rest) wake exit) :
    (∃ result, s.doAct S i c hook a rest wake exit = s.leaveHook S i c.place hook result exit) ∨
      ∃ stage, Dwells hook a rest wake exit stage ∧
        (s.doAct S i c hook a rest wake exit).cycles[i]? = some { c with stage := stage } := by
  have step := actStep_doAct S i c hook a rest wake exit s
  generalize s.doAct S i c hook a rest wake exit = t at step ⊢
  cases step with
  | stays => exact .inr ⟨_, .stays, by rw [← inside]; exact hc⟩
  | lies positive awake act => exact .inr ⟨_, .lies _ positive act, getElem?_setCycle_self _ hc⟩
  | passes act =>
    exact .inr ⟨_, .passes, getElem?_setCycle_self _ (by rw [act.cycles]; exact hc)⟩
  | leaves result => exact .inl ⟨result, rfl⟩
  | flinches => exact .inr ⟨_, .flinches, getElem?_setCycle_self (s := s) _ hc⟩

/-! ### What a step makes of a cycle -/

/-- A hook that was only just called has nothing in it that holds up its cycle. -/
theorem yields_callHook (obliging : S.IsObligingAt p) (hook : Hook) (exit : Exit)
    (hc : s.cycles[i]? = some c) : ∃ c', (s.callHook S i p hook exit).cycles[i]? = some c' ∧
      c'.place = c.place ∧ c'.stage.Yields := by
  obtain ⟨b, hb, called⟩ := getElem?_callHook_self (S := S) p hook exit hc
  exact ⟨_, called, rfl, fun past ↦
    ⟨hb.acts fun post hp n ↦ obliging post hp n hook past, fun woken ↦ nomatch woken⟩⟩

theorem yields_leaveHook (obliging : S.IsObligingAt p) (hook : Hook) (result exit : Exit)
    (hc : s.cycles[i]? = some c) : ∃ c', (s.leaveHook S i p hook result exit).cycles[i]? = some c' ∧
      c'.place = c.place ∧ c'.stage.Yields := by
  obtain ⟨stage, here, ⟨-, rfl⟩ | ⟨b, next, before, hb, rfl, -⟩⟩ :=
    getElem?_leaveHook (S := S) p hook result exit hc
  · exact ⟨_, here, rfl, trivial⟩
  · exact ⟨_, here, rfl, fun past ↦
      ⟨hb.acts fun post hp n ↦ obliging post hp n next past, fun woken ↦ nomatch woken⟩⟩

/-- A step of a cycle leaves it yielding. -/
theorem yields_step (obliging : S.IsObligingAt c.place) (hc : s.cycles[i]? = some c)
    (yields : c.stage.Yields) : ∃ c', (s.step S (.cycle i)).cycles[i]? = some c' ∧
      c'.place = c.place ∧ c'.stage.Yields := by
  have step : CycleStep S i c s (s.step S (.cycle i)) := cycleStep_step hc
  have left : ∀ {t : State} (m : Mark), t.cycles[i]? = some c →
      ∃ c', ((t.tryMark c.place m).endCycle i).cycles[i]? = some c' ∧ c'.place = c.place ∧
        c'.stage.Yields :=
    fun m ht ↦ ⟨_, getElem?_leave c.place m ht, rfl, trivial⟩
  by_cases hooks : ∃ hook acts wake exit, c.stage = .inside hook acts wake exit
  · obtain ⟨hook, acts, wake, exit, inside⟩ := hooks
    show ∃ c', (s.stepCycle S i).cycles[i]? = some c' ∧ _
    unfold stepCycle
    rw [hc]
    dsimp only
    rw [inside]
    rw [inside] at yields
    cases acts with
    | nil => exact yields_leaveHook obliging hook .clean exit hc
    | cons a rest =>
      rcases dwells_doAct (S := S) hc inside with ⟨result, e⟩ | ⟨stage, dwells, here⟩
      · dsimp only
        rw [e]
        exact yields_leaveHook obliging hook result exit hc
      · exact ⟨_, here, rfl, dwells.yields yields⟩
  generalize s.step S (.cycle i) = t at step
  cases step with
  | rests => exact ⟨c, hc, rfl, yields⟩
  | turnsAway => exact ⟨_, getElem?_endCycle_self hc, rfl, trivial⟩
  | begins fresh hm =>
    exact ⟨_, getElem?_setCycle_self _ (by rw [cycles_of_mark hm]; exact hc), rfl, trivial⟩
  | obeys => exact left .stopped hc
  | breaks => exact ⟨_, getElem?_setCycle_self (s := s) _ hc, rfl, trivial⟩
  | waits => exact ⟨_, getElem?_setCycle_self _ (getElem?_noteSeen hc), rfl, trivial⟩
  | starts => exact yields_callHook obliging .start .clean (getElem?_noteSeen hc)
  | meets => exact left .stopped (getElem?_noteSeen hc)
  | fails => exact left _ (getElem?_noteSeen hc)
  | hooks inside | flinches inside => exact absurd ⟨_, _, _, _, inside⟩ hooks

/-- **A cycle that yields can go on once it was told to end**, until it has ended. -/
theorem cycleIsEnabled_of_yields {acts : List Act} (hc : s.cycles[i]? = some c)
    (inside : c.stage = .inside hook acts wake exit) (past : hook ≠ .start)
    (yields : c.stage.Yields) (told : c.cancelled = true) : s.cycleIsEnabled i = true := by
  rw [inside] at yields
  obtain ⟨acts_yield, asleep⟩ := yields past
  unfold cycleIsEnabled
  rw [hc]
  dsimp only
  rw [inside]
  cases acts with
  | nil => rfl
  | cons a rest =>
    have yielding := acts_yield a List.mem_cons_self
    have awake : (∀ ms, a ≠ .wait ms) → wake = none := by
      intro other
      cases wake with
      | none => rfl
      | some m =>
        obtain ⟨-, ms, _, e⟩ := asleep rfl
        exact absurd (List.cons.inj e).1 (other ms)
    cases a with
    | sleep ms => rw [awake (by nofun)]; rfl
    | wait ms =>
      by_cases stop : hook = .stop
      · have none : wake = none := by
          cases wake with
          | none => rfl
          | some m => exact absurd stop (asleep rfl).1
        rw [none]
        exact Bool.or_true _
      · simp [Cycle.actIsEnabled, Cycle.reaches, told, stop]
    | untilCancelled =>
      have reached : hook ≠ .stop := yielding
      simp [Cycle.actIsEnabled, Cycle.reaches, told, reached]
    | hang => exact absurd yielding id
    | _ => rfl

/-- Every cycle of the resource in a place yields. -/
def Yields (p : Nat) (s : State) : Prop :=
  ∀ (i : Nat) (c : Cycle), s.cycles[i]? = some c → c.place = p → c.stage.Yields

end State

variable {S : Setup} {admits : Deed → Prop} {p : Nat} {s s' : State}

theorem Step.yields (h : Step S admits s s') (obliging : S.IsObligingAt p) (ho : s.IsOrderly)
    (hs : s.Yields p) : s'.Yields p := by
  intro i c' hc' place'
  rcases h.turn_or_changes ho (· = .cycle i) with ⟨t, rfl, rfl⟩ | ⟨who, other, chain⟩
  · cases hc : s.cycles[i]? with
    | none =>
      have same : s.step S (.cycle i) = s := by
        show s.stepCycle S i = s
        unfold State.stepCycle
        rw [hc]
      rw [same, hc] at hc'
      cases hc'
    | some c =>
      have chain : Changes S admits (some (.cycle i)) s (s.step S (.cycle i)) :=
        State.changes_step (.cycle i) s ho
      obtain ⟨d, hd, same⟩ := chain.place hc
      rw [hc'] at hd
      cases hd
      have place : c.place = p := same.symm.trans place'
      obtain ⟨d, hd, -, yields⟩ := State.yields_step (place ▸ obliging) hc (hs i c hc place)
      rw [hc'] at hd
      cases hd
      exact yields
  · rcases chain.cycle_of_other (other _ rfl) hc' with ⟨c, hc, place, same⟩ | ⟨-, fresh⟩ | ⟨gone, -⟩
    · rw [same]
      exact hs i c hc (place ▸ place')
    · rw [fresh]
      trivial
    · rw [gone]
      trivial

/-- **Every cycle of an obliging resource yields at every moment.** -/
theorem Reaches.yields {bus : Bus} {recorder : Option Recorder} {now : Nat}
    (run : Reaches S admits (State.initial S bus recorder now) s) (obliging : S.IsObligingAt p) :
    s.Yields p := by
  have both : s.IsOrderly ∧ s.Yields p := by
    refine Reaches.keeps (P := fun s ↦ s.IsOrderly ∧ s.Yields p)
      (fun hs step ↦ ⟨step.isOrderly hs.1, step.yields obliging hs.1 hs.2⟩) run ?_
    exact ⟨State.isOrderly_initial S bus recorder now,
      fun i c hc _ ↦ absurd (Array.mem_of_getElem? hc) (Array.not_mem_empty c)⟩
  exact both.2

end Supervision
