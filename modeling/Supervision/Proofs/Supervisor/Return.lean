import Mathlib.Order.Monotone.Basic
import Supervision.Proofs.Supervisor.Clocks
import Supervision.Proofs.Supervisor.Course
import Supervision.Proofs.Supervisor.LatestMove
import Supervision.Proofs.Supervisor.Scripts

/-!
# Every cycle ends

A cycle goes through phases: it waits, is in its start hook, serves, stops, and has ended. In each
phase there is a moment at which it is due to leave it (`CycleStage.due`): the deadline of its wait,
or the end of all the sleeps that are left to its hook. No step of the cycle puts that off, and no
time passes beyond it. So in a run in which time goes on a cycle whose hooks do not wait forever
leaves one phase after the other (`exists_finished`).

* `cycle_runs_its_course_iff` — a lone cycle makes the beats of a whole cycle and ends, exactly if
  it does not have to wait up to a deadline beyond every clock, and comes to no hook that panics
  while it is called.
-/

namespace Supervision

/-- The act comes to an end, if the cycle is told to end or not. The stop hook does not learn of
that. -/
def Act.EndsIn (told : Prop) (hook : Hook) : Act → Prop
  | .hang => False
  | .untilCancelled => told ∧ hook ≠ .stop
  | .sleep _ | .wait _ | .giveUp _ | .panic _ | .flinch _ | .mark _ | .request _ | .note _ => True

/-- How long an act sleeps at most. -/
def Act.lasts : Act → Nat
  | .sleep ms | .wait ms => ms
  | _ => 0

/-- How long acts sleep at most, one after the other. -/
def Act.allLast : List Act → Nat
  | [] => 0
  | a :: rest => a.lasts + allLast rest

/-- The phase of a cycle in a hook. -/
def Hook.phase : Hook → Nat
  | .start => 2
  | .serve => 3
  | .stop => 4

theorem Hook.phase_lt (hook : Hook) : hook.phase < 5 := by cases hook <;> decide

namespace CycleStage

/-- Which phase a cycle is in. -/
def phase : CycleStage → Nat
  | .fresh => 0
  | .gated _ => 1
  | .inside hook _ _ _ => hook.phase
  | .finished => 5

/-- The moment at which a cycle is due to leave its phase. -/
def due (timeout : Span) (now : Nat) : CycleStage → Nat
  | .gated none => now + timeout.millisUp
  | .gated (some w) => w.deadline
  | .inside _ acts none _ => now + Act.allLast acts
  | .inside _ acts (some wake) _ => wake + Act.allLast acts.tail
  | .fresh | .finished => now

/-- All acts that are left come to an end. -/
def Ends (told : Prop) : CycleStage → Prop
  | .inside hook acts _ _ => ∀ a ∈ acts, a.EndsIn told hook
  | _ => True

theorem phase_lt {stage : CycleStage} (going : stage ≠ .finished) : stage.phase < 5 := by
  cases stage with
  | fresh => decide
  | gated wait? => exact Nat.lt_add_of_pos_left (by decide : 0 < 4)
  | inside hook acts wake exit => exact hook.phase_lt
  | finished => exact absurd rfl going

end CycleStage

/-- All acts of the hooks of the resource in a place come to an end. -/
def Setup.EndsAt (S : Setup) (p : Nat) (told : Prop) : Prop :=
  ∀ post, S.posts[p]? = some post → ∀ n hook, ∀ a ∈ (post.behaviour n).script hook,
    a.EndsIn told hook

namespace State

variable {S : Setup} {i p : Nat} {c : Cycle} {s t : State} {told : Prop} {hook : Hook}
  {acts : List Act} {wake : Option Nat} {exit : Exit}

/-- Cycle `i`, which stands as `c`, is of the resource in place `p`, does not sleep beyond its
moment, and all that it has left to do comes to an end. -/
structure IsPassing (told : Prop) (i p : Nat) (c : Cycle) (s : State) : Prop where
  here : s.cycles[i]? = some c
  place : c.place = p
  timely : ∀ m, c.timer? = some m → s.now ≤ m
  ends : c.stage.Ends told

/-- From `c` to `d` a cycle gets into a later phase, or stays in its phase and is due no later. -/
def IsNoLater (S : Setup) (now now' : Nat) (c d : Cycle) : Prop :=
  c.stage.phase < d.stage.phase ∨ d.stage.phase = c.stage.phase ∧
    d.stage.due S.settings.startupTimeout now' ≤ c.stage.due S.settings.startupTimeout now

/-- A cycle leaves its phase at the moment at which it is due, at the latest. -/
theorem IsPassing.le_due (h : s.IsPassing told i p c) (timeout : Span) :
    s.now ≤ c.stage.due timeout s.now := by
  have timely := h.timely
  unfold Cycle.timer? at timely
  unfold CycleStage.due
  cases hs : c.stage with
  | fresh => exact Nat.le_refl _
  | gated wait? =>
    cases wait? with
    | none => exact Nat.le_add_right _ _
    | some w =>
      rw [hs] at timely
      exact timely _ rfl
  | inside hook acts wake exit =>
    cases wake with
    | none => exact Nat.le_add_right _ _
    | some m =>
      rw [hs] at timely
      exact Nat.le_trans (timely _ rfl) (Nat.le_add_right _ _)
  | finished => exact Nat.le_refl _

/-! ### A step of the cycle -/

/-- A cycle that calls a hook, or ends, gets into a later phase, in which it does not sleep yet. -/
theorem IsPassing.gets {stage : CycleStage} (h : s.IsPassing told i p c)
    (here : t.cycles[i]? = some { c with stage := stage })
    (awake : ({ c with stage := stage } : Cycle).timer? = none) (ends : stage.Ends told)
    (later : c.stage.phase < stage.phase) :
    ∃ d, t.IsPassing told i p d ∧ IsNoLater S s.now t.now c d := by
  refine ⟨_, ⟨here, h.place, fun m hm ↦ ?_, ends⟩, .inl later⟩
  rw [awake] at hm
  cases hm

theorem IsPassing.leaveHook (h : s.IsPassing told i p c) (hooks : S.EndsAt p told)
    (inside : c.stage = .inside hook acts wake exit) (result : Exit) :
    ∃ d, (s.leaveHook S i c.place hook result exit).IsPassing told i p d ∧
      IsNoLater S s.now (s.leaveHook S i c.place hook result exit).now c d := by
  have phase : c.stage.phase = hook.phase := by rw [inside]; rfl
  obtain ⟨stage, here, ⟨-, rfl⟩ | ⟨b, next, before, hb, rfl, order⟩⟩ :=
    getElem?_leaveHook (S := S) c.place hook result exit h.here
  · exact h.gets here rfl trivial (phase ▸ hook.phase_lt)
  · have later : hook.phase < next.phase := by
      rcases order with ⟨rfl, rfl⟩ | ⟨more, rfl⟩
      · decide
      · cases hook with
        | stop => exact absurd rfl more
        | _ => decide
    exact h.gets here rfl (hb.acts fun post hp n ↦ hooks post (h.place ▸ hp) n next)
      (phase ▸ later)

/-- A cycle in a hook stays in it and is due no later, or gets on. -/
theorem IsPassing.goesOn (h : s.IsPassing told i p c) (hooks : S.EndsAt p told)
    (inside : c.stage = .inside hook acts wake exit) (now : (s.step S (.cycle i)).now = s.now) :
    ∃ d, (s.step S (.cycle i)).IsPassing told i p d ∧
      IsNoLater S s.now (s.step S (.cycle i)).now c d := by
  have step : s.step S (.cycle i) = s.stepCycle S i := rfl
  rw [step] at now ⊢
  unfold stepCycle at now ⊢
  rw [h.here] at now ⊢
  dsimp only at now ⊢
  rw [inside] at now ⊢
  cases acts with
  | nil => exact h.leaveHook hooks inside .clean
  | cons a rest =>
    have step := actStep_doAct S i c hook a rest wake exit s
    dsimp only at now ⊢
    generalize s.doAct S i c hook a rest wake exit = t at step now ⊢
    have ends := h.ends
    rw [inside] at ends
    cases step with
    | stays => exact ⟨c, h, .inr ⟨rfl, Nat.le_refl _⟩⟩
    | @lies ms positive awake act =>
      -- It was due to sleep that long, and what comes after is the same.
      have lasts : a.lasts = ms := by rcases act with rfl | rfl <;> rfl
      refine ⟨_, ⟨getElem?_setCycle_self _ h.here, h.place, fun m hm ↦ ?_, ends⟩, .inr ⟨?_, ?_⟩⟩
      · cases hm
        exact Nat.le_add_right _ _
      · rw [inside]
        rfl
      · rw [inside, awake, now]
        simp only [CycleStage.due, List.tail_cons, Act.allLast, lasts]
        omega
    | @passes u act =>
      refine ⟨_, ⟨getElem?_setCycle_self _ (by rw [act.cycles]; exact h.here), h.place, nofun,
        fun b hb ↦ ends b (List.mem_cons_of_mem a hb)⟩, .inr ⟨?_, ?_⟩⟩
      · rw [inside]
        rfl
      · rw [inside, now]
        cases wake with
        | none =>
          simp only [CycleStage.due, Act.allLast]
          omega
        | some m =>
          -- It goes on by the moment up to which it sleeps.
          have asleep : s.now ≤ m := h.timely m (by rw [Cycle.timer?, inside])
          simp only [CycleStage.due, List.tail_cons]
          omega
    | leaves result => exact h.leaveHook hooks inside result
    | flinches act =>
      refine h.gets (getElem?_setCycle_self _ h.here) rfl trivial ?_
      rw [inside]
      exact hook.phase_lt

/-- A wait is due at its deadline. -/
theorem Awaits.deadline_eq_due {before : Wait} (looks : Awaits S c s before) :
    before.deadline = c.stage.due S.settings.startupTimeout s.now := by
  cases looks with
  | first gated near =>
    rw [gated]
    rfl
  | again gated =>
    rw [gated]
    rfl

/-- **A step of a cycle gets it into a later phase, or puts off nothing.** -/
theorem IsPassing.step (h : s.IsPassing told i p c) (hooks : S.EndsAt p told)
    (now : (s.step S (.cycle i)).now = s.now) :
    ∃ d, (s.step S (.cycle i)).IsPassing told i p d ∧
      IsNoLater S s.now (s.step S (.cycle i)).now c d := by
  by_cases inHook : ∃ hook acts wake exit, c.stage = .inside hook acts wake exit
  · obtain ⟨hook, acts, wake, exit, inside⟩ := inHook
    exact h.goesOn hooks inside now
  -- Outside of the hooks a step ends the cycle, calls the start hook, or goes on waiting.
  have ends : ∀ {t : State}, t.cycles[i]? = some { c with stage := .finished } →
      c.stage ≠ .finished → ∃ d, t.IsPassing told i p d ∧ IsNoLater S s.now t.now c d :=
    fun here going ↦ h.gets here rfl trivial (CycleStage.phase_lt going)
  have step : CycleStep S i c s (s.step S (.cycle i)) := cycleStep_step h.here
  generalize s.step S (.cycle i) = t at step now
  cases step with
  | rests isOver => exact ⟨c, h, .inr ⟨rfl, Nat.le_refl _⟩⟩
  | turnsAway fresh hm => exact ends (getElem?_endCycle_self h.here) (by rw [fresh]; nofun)
  | begins fresh hm =>
    have here : _ = some c := (congrArg (·[i]?) (cycles_of_mark hm)).trans h.here
    refine h.gets (getElem?_setCycle_self _ here) rfl trivial ?_
    rw [fresh]
    exact Nat.zero_lt_one
  | obeys gated told => exact ends (getElem?_leave c.place .stopped h.here) (by rw [gated]; nofun)
  | breaks gated far => exact ends (getElem?_setCycle_self _ h.here) (by rw [gated]; nofun)
  | @waits before looks going =>
    have deadline := looks.deadline_eq_due
    obtain ⟨wait?, gated⟩ := looks.isGated
    refine ⟨_, ⟨getElem?_setCycle_self _ (getElem?_noteSeen h.here), h.place, fun m hm ↦ ?_,
      trivial⟩, .inr ⟨by rw [gated]; rfl, Nat.le_of_eq deadline⟩⟩
    cases hm
    rw [now]
    exact Nat.le_trans (h.le_due _) (Nat.le_of_eq deadline.symm)
  | starts looks ready =>
    obtain ⟨b, hb, called⟩ := getElem?_callHook_self (S := S) c.place .start .clean
      (getElem?_noteSeen h.here)
    obtain ⟨wait?, gated⟩ := looks.isGated
    refine h.gets called rfl
      (hb.acts fun post hp n ↦ hooks post (h.place ▸ hp) n .start) ?_
    rw [gated]
    exact Nat.one_lt_two
  | meets looks result =>
    obtain ⟨wait?, gated⟩ := looks.isGated
    exact ends (getElem?_leave c.place _ (getElem?_noteSeen h.here)) (by rw [gated]; nofun)
  | fails looks result =>
    obtain ⟨wait?, gated⟩ := looks.isGated
    exact ends (getElem?_leave c.place _ (getElem?_noteSeen h.here)) (by rw [gated]; nofun)
  | hooks inside _ | flinches inside => exact absurd ⟨_, _, _, _, inside⟩ inHook

/-! ### The time that passes -/

/-- When a cycle that cannot go on is due does not depend on the moment, as long as it was told to
end if its hooks wait for that. -/
theorem IsPassing.due_of_idle (h : s.IsPassing told i p c) (heard : told → c.cancelled = true)
    (going : c.stage ≠ .finished) (idle : s.isEnabled (.cycle i) = false) (timeout : Span)
    (now : Nat) : c.stage.due timeout now = c.stage.due timeout s.now := by
  have idle : s.cycleIsEnabled i = false := idle
  unfold cycleIsEnabled at idle
  rw [h.here] at idle
  dsimp only at idle
  have ends := h.ends
  cases hs : c.stage with
  | fresh =>
    rw [hs] at idle
    cases idle
  | gated wait? =>
    cases wait? with
    | none =>
      rw [hs] at idle
      cases idle
    | some w => rfl
  | inside hook acts wake exit =>
    rw [hs] at idle ends
    cases acts with
    | nil => cases idle
    | cons a rest =>
      cases wake with
      | some m => rfl
      | none =>
        -- Awake, it can go on whatever it has to do next.
        have idle : c.actIsEnabled s.now hook none a = false := idle
        have ended := ends a List.mem_cons_self
        cases a with
        | hang => exact absurd ended id
        | wait ms => exact absurd idle (by simp [Cycle.actIsEnabled])
        | untilCancelled =>
          refine absurd idle ?_
          simp [Cycle.actIsEnabled, Cycle.reaches, heard ended.1, ended.2]
        | _ => cases idle
  | finished => exact absurd hs going

end State

section Lone

variable {S : Setup} {i p : Nat} {c : Cycle} {s t : State} {told : Prop} {more : List Beat}

theorem Step.le_now {admits : Deed → Prop} (h : Step S admits s t) (ho : s.IsOrderly) :
    s.now ≤ t.now := by
  obtain ⟨who, chain⟩ := h.changes ho
  clear h
  induction chain with
  | refl => exact Nat.le_refl _
  | tail _ last ih => exact Nat.le_trans ih last.le_now

/-- A cycle that stands where it stood at the same moment is due when it was. -/
theorem State.IsPassing.stays {admits : Deed → Prop} {who : Option Task}
    (passing : s.IsPassing told i p c) (chain : Changes S admits who s t) (now : t.now = s.now)
    (stage : (t.cycles[i]?).map (·.stage) = (s.cycles[i]?).map (·.stage)) :
    ∃ d, t.IsPassing told i p d ∧ d.stage.phase = c.stage.phase ∧
      State.IsNoLater S s.now t.now c d := by
  obtain ⟨d, hd, place⟩ := chain.place passing.here
  rw [hd, passing.here] at stage
  have same : d.stage = c.stage := Option.some.inj stage
  have phase : d.stage.phase = c.stage.phase := by rw [same]
  refine ⟨d, ⟨hd, place.trans passing.place, fun m hm ↦ ?_, same ▸ passing.ends⟩, phase,
    .inr ⟨phase, Nat.le_of_eq (by rw [same, now])⟩⟩
  have timer : c.timer? = some m := by
    rw [← hm]
    unfold Cycle.timer?
    rw [same]
  exact now ▸ passing.timely m timer

/-- **One step gets a lone cycle into a later phase, or puts off nothing**, once it was told to end
if its hooks wait for that. -/
theorem LoneStep.isPassing (h : LoneStep S i p s more t) (ho : s.IsOrderly)
    (hooks : S.EndsAt p told) (passing : s.IsPassing told i p c) :
    ∃ d, t.IsPassing told i p d ∧ c.stage.phase ≤ d.stage.phase ∧
      ((told → c.cancelled = true) → c.stage ≠ .finished → State.IsNoLater S s.now t.now c d) := by
  cases h with
  | own enabled beats =>
    have chain : Changes S (fun _ ↦ True) (some (.cycle i)) s (s.step S (.cycle i)) :=
      State.changes_step _ s ho
    obtain ⟨d, hd, later⟩ := passing.step hooks chain.now
    exact ⟨d, hd, later.elim Nat.le_of_lt fun stays ↦ Nat.le_of_eq stays.1.symm,
      fun _ _ ↦ later⟩
  | other step status stage =>
    cases step with
    | turn k enabled =>
      have chain : Changes S (fun _ ↦ True) (some k) s (s.step S k) := State.changes_step k s ho
      obtain ⟨d, hd, phase, noLater⟩ := passing.stays chain chain.now stage
      exact ⟨d, hd, Nat.le_of_eq phase.symm, fun _ _ ↦ noLater⟩
    | deed d admitted =>
      have chain : Changes S (fun _ ↦ True) none s (s.undergo d) :=
        State.changes_undergo d s admitted
      obtain ⟨d, hd, phase, noLater⟩ := passing.stays chain (State.now_undergo d s) stage
      exact ⟨d, hd, Nat.le_of_eq phase.symm, fun _ _ ↦ noLater⟩
    | pass moment later idle timers =>
      -- Time passes up to the next timer only, and only when the cycle cannot go on.
      have timer : s.timer? (.cycle i) = c.timer? := by
        show (s.cycles[i]?).bind (·.timer?) = c.timer?
        rw [passing.here]
        rfl
      refine ⟨c, ⟨passing.here, passing.place, fun m hm ↦ timers _ m (timer.trans hm),
        passing.ends⟩, Nat.le_refl _, fun heard going ↦ .inr ⟨rfl, ?_⟩⟩
      exact Nat.le_of_eq (passing.due_of_idle heard going (idle _) _ _)

/-- Whoever gets into a later phase or is due no later, and does not stay beyond the moment at which
he is due, gets into the last phase when time goes on. -/
theorem exists_last_phase {phase due now : Nat → Nat} {last first : Nat}
    (onward : Monotone phase) (later : Monotone now) (inTime : ∀ n, now n ≤ due n)
    (noLater : ∀ n, first ≤ n → phase n < last →
      phase n < phase (n + 1) ∨ phase (n + 1) = phase n ∧ due (n + 1) ≤ due n)
    (goesOn : ∀ m, ∃ n, m < now n) : ∃ n, last ≤ phase n := by
  -- By induction on how many phases are left.
  have from_ : ∀ left N, first ≤ N → last ≤ phase N + left → ∃ n, last ≤ phase n := by
    intro left
    induction left with
    | zero => exact fun N _ ended ↦ ⟨N, ended⟩
    | succ left ih =>
      intro N start near
      by_contra none
      have none : ∀ n, phase n < last := fun n ↦ Nat.lt_of_not_le fun ended ↦ none ⟨n, ended⟩
      have stuck : ∀ n, N ≤ n → phase n = phase N := by
        intro n hn
        refine Nat.le_antisymm (Nat.le_of_not_lt fun gets ↦ ?_) (onward hn)
        obtain ⟨m, ended⟩ := ih n (Nat.le_trans start hn) (by omega)
        exact Nat.not_le_of_lt (none m) ended
      have kept : ∀ k, due (N + k) ≤ due N := by
        intro k
        induction k with
        | zero => exact Nat.le_refl _
        | succ k before =>
          rcases noLater (N + k) (by omega) (none _) with gets | ⟨-, le⟩
          · have here := stuck (N + k) (by omega)
            have next := stuck (N + k + 1) (by omega)
            omega
          · exact Nat.le_trans le before
      obtain ⟨n, late⟩ := goesOn (due N)
      have passed : now n ≤ now (N + n) := later (Nat.le_add_left n N)
      exact Nat.not_le_of_lt late
        (Nat.le_trans passed (Nat.le_trans (inTime (N + n)) (kept n)))
  exact from_ last first (Nat.le_refl _) (Nat.le_add_left _ _)

section Runs

variable {f : Nat → State} (ho : (f 0).IsOrderly)
  (steps : ∀ n, ∃ more, LoneStep S i p (f n) more (f (n + 1)))
include ho steps

theorem isOrderly_along (n : Nat) : (f n).IsOrderly := by
  induction n with
  | zero => exact ho
  | succ n ih =>
    obtain ⟨more, step⟩ := steps n
    exact step.step.isOrderly ih

/-- A cycle that is told to end at some moment was told from some moment on. -/
theorem exists_told_from : ∃ first, ∀ n, first ≤ n → (∃ m, (f m).IsToldToEnd i) →
    (f n).IsToldToEnd i := by
  by_cases told : ∃ m, (f m).IsToldToEnd i
  · obtain ⟨m, told⟩ := told
    refine ⟨m, fun n hn _ ↦ ?_⟩
    induction n, hn using Nat.le_induction with
    | base => exact told
    | succ n hn ih =>
      obtain ⟨more, step⟩ := steps n
      exact step.step.isToldToEnd (isOrderly_along ho steps n) ih
  · exact ⟨0, fun _ _ yes ↦ absurd yes told⟩

/-- A cycle stands somewhere all along. -/
theorem exists_stands (hooks : S.EndsAt p told) (begins : (f 0).IsPassing told i p c) :
    ∃ d : Nat → Cycle, (∀ n, (f n).IsPassing told i p (d n)) ∧
      ∀ n, (d n).stage.phase ≤ (d (n + 1)).stage.phase ∧
        ((told → (d n).cancelled = true) → (d n).stage ≠ .finished →
          State.IsNoLater S (f n).now (f (n + 1)).now (d n) (d (n + 1))) := by
  have orderly : ∀ n, (f n).IsOrderly := isOrderly_along ho steps
  have stands : ∀ n, ∃ d, (f n).IsPassing told i p d := by
    intro n
    induction n with
    | zero => exact ⟨c, begins⟩
    | succ n ih =>
      obtain ⟨d, passing⟩ := ih
      obtain ⟨more, step⟩ := steps n
      obtain ⟨e, passing', -⟩ := step.isPassing (orderly n) hooks passing
      exact ⟨e, passing'⟩
  choose d passing using stands
  refine ⟨d, passing, fun n ↦ ?_⟩
  obtain ⟨more, step⟩ := steps n
  obtain ⟨e, passing', phase, noLater⟩ := step.isPassing (orderly n) hooks (passing n)
  cases (passing (n + 1)).here.symm.trans passing'.here
  exact ⟨phase, noLater⟩

/-- **In a run in which time goes on a lone cycle ends**, if its hooks come to an end. -/
theorem exists_finished (goesOn : ∀ m, ∃ n, m < (f n).now)
    (hooks : S.EndsAt p (∃ n, (f n).IsToldToEnd i))
    (begins : (f 0).IsPassing (∃ n, (f n).IsToldToEnd i) i p c) :
    ∃ n, (f n).cycleIsOver i = true := by
  obtain ⟨d, passing, next⟩ := exists_stands ho steps hooks begins
  obtain ⟨first, from_⟩ := exists_told_from ho steps
  have heard : ∀ n, first ≤ n → (∃ n, (f n).IsToldToEnd i) → (d n).cancelled = true := by
    intro n hn told
    obtain ⟨e, he, cancelled⟩ := from_ n hn told
    cases (passing n).here.symm.trans he
    exact cancelled
  by_contra never
  have going : ∀ n, (d n).stage ≠ .finished := fun n isOver ↦
    never ⟨n, (State.cycleIsOver_iff_of_some (passing n).here).2 isOver⟩
  -- Then it gets into the last phase all the same.
  have onward : Monotone fun n ↦ (d n).stage.phase := monotone_nat_of_le_succ fun n ↦ (next n).1
  have later : Monotone fun n ↦ (f n).now := monotone_nat_of_le_succ fun n ↦ by
    obtain ⟨more, step⟩ := steps n
    exact step.step.le_now (isOrderly_along ho steps n)
  have noLater : ∀ n, first ≤ n → (d n).stage.phase < 5 → _ :=
    fun n hn _ ↦ (next n).2 (heard n hn) (going n)
  obtain ⟨n, ended⟩ := exists_last_phase onward later (fun n ↦ (passing n).le_due _) noLater goesOn
  exact absurd ended (Nat.not_le_of_lt (CycleStage.phase_lt (going n)))

end Runs

end Lone

/-! ### The course of every cycle -/

/-- What cycle `i` of the resource in place `p` comes to when it goes on alone from `b`, where the
resource is in a status. -/
structure State.RunsItsCourse (S : Setup) (i p : Nat) (first : Status) (b : State) : Prop where
  /-- When it has ended it has run its course. -/
  ended : ∀ done s, LoneRun S i p b done s → s.cycleIsOver i = true →
    Cycle.HasRunItsCourse first done (s.ensemble.status? p)
  /-- As long as it is in the stop hook, it may settle the resource, or need not. -/
  legal : ∀ done s (c : Cycle) acts wake exit, LoneRun S i p b done s → s.cycles[i]? = some c →
    c.stage = .inside .stop acts wake exit →
    ∃ status, s.ensemble.status? p = some status ∧
      (status.isTerminal = true ∨ status.allows exit.verdict = true)
  /-- In a run in which time goes on it ends, if its hooks come to an end. -/
  returns : ∀ f : Nat → State, f 0 = b → (∀ n, ∃ more, LoneStep S i p (f n) more (f (n + 1))) →
    (∀ m, ∃ n, m < (f n).now) → S.EndsAt p (∃ n, (f n).IsToldToEnd i) →
    ∃ n, (f n).cycleIsOver i = true

/-- The first cycle of every resource may begin when the first run does. -/
theorem State.begins_begun {S : Setup} {p : Nat} (here : p < S.posts.size) (bus : Bus)
    (recorder : Option Recorder) (now : Nat) : (State.begun S bus recorder now).Begins p p ∧
      (State.begun S bus recorder now).ensemble.status? p = some .notStarted := by
  have hp : S.posts[p]? = some S.posts[p] := Array.getElem?_eq_getElem here
  have new : (State.begun S bus recorder now).lifecycle? p = some (.new S.posts[p].name) := by
    simp [State.lifecycle?, State.ensemble_begun, State.initial, Ensemble.ofNames, Setup.names, hp]
  exact ⟨⟨_, _, State.cycle_begun here, rfl, rfl, new, rfl⟩, State.status?_eq new⟩

/-- A cycle that has to wait up to a deadline beyond every clock breaks when it does, and its
resource stays starting. -/
theorem State.exists_broken_loneRun {S : Setup} {i p : Nat} {b : State} (begins : b.Begins i p)
    (beyond : ¬ b.IsWithinClocks S i p) : ∃ done s, LoneRun S i p b done s ∧
      s.cycleIsOver i = true ∧ s.ensemble.status? p = some .starting := by
  unfold State.IsWithinClocks at beyond
  obtain ⟨waits, far, untold⟩ : S.needs p ≠ [] ∧ S.settings.startupTimeout.isBeyondClocks = true ∧
      ¬ b.IsToldToEnd i := by simpa using beyond
  obtain ⟨⟨place, cancelled, stage⟩, l, hc, rfl, fresh, hl, may⟩ := begins
  cases fresh
  cases cancelled with
  | true => exact absurd ⟨_, hc, rfl⟩ untold
  | false =>
    obtain ⟨first, gated⟩ := State.begins_of_fresh (S := S) hc rfl hl may
    have second := State.step_gated_of_far far waits gated
    have makes : State.Makes i place [] (b.step S (.cycle i))
        ((b.step S (.cycle i)).step S (.cycle i)) := by
      rw [second]
      exact (State.makes_note rfl).trans (s := b.step S (.cycle i)) (.of_eq rfl rfl)
    have begun : LoneRun S i place b _ (b.step S (.cycle i)) :=
      LoneRun.refl.step (.own (State.isEnabled_of_fresh hc (.inl rfl)) first.beats)
    refine ⟨_, _, begun.step (.own (State.isEnabled_of_fresh gated (.inr rfl)) makes.beats), ?_, ?_⟩
    · rw [second]
      exact (State.cycleIsOver_iff_of_some (State.getElem?_setCycle_self _ gated)).2 rfl
    · obtain ⟨k, hk, starting⟩ := (first.trans makes).status l hl
      rw [State.status?_eq hk, starting]
      rfl

/-- A cycle in a hook that panics while it is called breaks off in its next step. -/
theorem LoneRun.exists_over_of_flinches {S : Setup} {i p : Nat} {b s : State} {done : List Beat}
    (h : LoneRun S i p b done s) (flinches : s.Flinches i) :
    ∃ t, LoneRun S i p b done t ∧ t.cycleIsOver i = true := by
  obtain ⟨c, hc, flinches⟩ := flinches
  obtain ⟨hook, payload, rest, wake, exit, stage⟩ := flinches.exists_eq
  have enabled : s.isEnabled (.cycle i) = true := by
    show s.cycleIsEnabled i = true
    unfold State.cycleIsEnabled
    rw [hc]
    dsimp only
    rw [stage]
    rfl
  have breaks : s.step S (.cycle i) =
      (s.setCycle i .finished).enter (.flinched i hook payload.message) := by
    show s.stepCycle S i = _
    unfold State.stepCycle
    rw [hc]
    dsimp only
    rw [stage]
    rfl
  have beats : (s.step S (.cycle i)).beats i = s.beats i ++ [] := by
    rw [breaks]
    exact State.view_enter _ _ s
  have run := h.step (.own enabled beats)
  rw [List.append_nil, breaks] at run
  exact ⟨_, run, (State.cycleIsOver_iff_of_some (State.getElem?_setCycle_self _ hc)).2 rfl⟩

/-- In a hook that panics while it is called a cycle has not run its course. -/
theorem State.RunsCourse.not_isWhole {i p : Nat} {first : Status} {done : List Beat} {s : State}
    (h : State.RunsCourse i p first done s) (flinches : s.Flinches i) : ¬ Cycle.IsWhole done := by
  obtain ⟨c, hc, -, course⟩ := h.cycle
  obtain ⟨d, hd, flinches⟩ := flinches
  cases hc.symm.trans hd
  obtain ⟨hook, payload, rest, wake, exit, stage⟩ := flinches.exists_eq
  rw [stage] at course
  exact course.not_isWhole

/-- However cycle `i` of the resource in place `p` goes on alone, it comes to no hook that panics
while it is called. -/
def State.NeverFlinches (S : Setup) (i p : Nat) (b : State) : Prop :=
  ∀ done s, LoneRun S i p b done s → ¬ s.Flinches i

/-- So it is if no hook of the resource ever does. -/
theorem State.neverFlinches_of_scripts {S : Setup} {i p : Nat} {b : State} (ho : b.IsOrderly)
    (scripts : S.ScriptsAt p (·.isFlinch = false)) (left : b.HasLeft p (·.isFlinch = false))
    (begins : b.Begins i p) : b.NeverFlinches S i p := by
  intro done s run
  have kept : s.IsOrderly ∧ s.HasLeft p (·.isFlinch = false) ∧
      ∃ c : Cycle, s.cycles[i]? = some c ∧ c.place = p := by
    induction run with
    | refl =>
      obtain ⟨c, l, hc, place, -⟩ := begins
      exact ⟨ho, left, c, hc, place⟩
    | step before last ih =>
      obtain ⟨ho, left, c, hc, here⟩ := ih
      obtain ⟨who, chain⟩ := last.step.changes ho
      obtain ⟨d, hd, same⟩ := chain.place hc
      exact ⟨last.step.isOrderly ho, last.step.hasLeft scripts ho left, d, hd, same.trans here⟩
  obtain ⟨-, left, c, hc, here⟩ := kept
  rintro ⟨d, hd, flinches⟩
  cases hc.symm.trans hd
  obtain ⟨hook, payload, rest, wake, exit, stage⟩ := flinches.exists_eq
  have steady := left i c hc here
  rw [stage] at steady
  cases steady _ List.mem_cons_self

/-- **When a cycle that goes on alone runs its course**: whatever its hooks do, whatever comes of
what its resource depends on and whenever it is told to end, exactly if it does not have to wait up
to a deadline beyond every clock, and comes to no hook that panics while it is called. -/
theorem cycle_runs_its_course_iff {S : Setup} {bus : Bus} {recorder : Option Recorder}
    {now i p : Nat} {b : State} {first : Status}
    (run : Reaches S (fun _ ↦ True) (State.initial S bus recorder now) b) (begins : b.Begins i p)
    (status : b.ensemble.status? p = some first) :
    State.RunsItsCourse S i p first b ↔ b.IsWithinClocks S i p ∧ b.NeverFlinches S i p := by
  obtain ⟨c, l, hc, place, fresh, hl, may⟩ := id begins
  have ho : b.IsOrderly := run.fits.1
  have same : l.status = first := Option.some.inj ((State.status?_eq hl).symm.trans status)
  have start : State.RunsCourse i p first [] b :=
    ⟨⟨c, hc, place, by rw [fresh]; exact .fresh⟩, ⟨l, hl, same⟩,
      fun _ mem ↦ absurd mem List.not_mem_nil⟩
  constructor
  · intro course
    have within : b.IsWithinClocks S i p := by
      by_contra beyond
      obtain ⟨done, s, going, isOver, starting⟩ := State.exists_broken_loneRun begins beyond
      obtain ⟨status, hs, settled⟩ := (course.ended done s going isOver).settled
      cases starting.symm.trans hs
      cases settled
    refine ⟨within, fun done s going flinches ↦ ?_⟩
    obtain ⟨done, s, going, runs, flinches⟩ :
        ∃ done s, LoneRun S i p b done s ∧ State.RunsCourse i p first done s ∧ s.Flinches i :=
      (going.runsCourse_or_flinches ho (same ▸ may) within start).elim
        (fun runs ↦ ⟨done, s, going, runs, flinches⟩) id
    obtain ⟨t, going, isOver⟩ := going.exists_over_of_flinches flinches
    exact runs.not_isWhole flinches (course.ended done t going isOver).whole
  rintro ⟨within, steady⟩
  have runs : ∀ {done s}, LoneRun S i p b done s → State.RunsCourse i p first done s :=
    fun going ↦ (going.runsCourse_or_flinches ho (same ▸ may) within start).resolve_right
      fun ⟨done, s, going, _, flinches⟩ ↦ steady done s going flinches
  refine ⟨fun done s going isOver ↦ ?_, fun done s d acts wake exit going hd inside ↦ ?_,
    fun f begun steps goesOn hooks ↦ ?_⟩
  · obtain ⟨⟨d, hd, -, course⟩, ⟨k, hk, leaves⟩, -⟩ := runs going
    rw [(State.cycleIsOver_iff_of_some hd).1 isOver] at course
    cases course with
    | finished whole =>
      rw [State.status?_eq hk, leaves]
      exact whole.hasRunItsCourse first
  · obtain ⟨k, hk, -⟩ := (runs going).lifecycle
    have begun : k.status ≠ .notStarted := (runs going).ne_notStarted hd (by rw [inside]; nofun) hk
    refine ⟨k.status, State.status?_eq hk, ?_⟩
    cases settled : k.status.isTerminal with
    | true => exact .inl rfl
    | false =>
      exact .inr (Status.allows_of_isTerminal (Status.starting_or_running begun settled)
        exit.isTerminal_verdict)
  · subst begun
    refine exists_finished ho steps goesOn hooks (c := c) ⟨hc, place, fun m hm ↦ ?_, ?_⟩
    · rw [Cycle.timer?, fresh] at hm
      cases hm
    · rw [fresh]
      trivial

/-! ### A cycle that fails and starts again in one hook -/

/-- Its resource fails and starts again in its start hook, breaks down for good when it is served,
and says in the stop hook that it is ready. -/
def Setup.fickle : Setup := .single fun _ ↦ {
  start := [.mark (.failed (.plain "resource_failed" "lost")), .mark .starting]
  serve := [.giveUp (.fatal "boom")]
  stop := [.mark .ready] }

/-- Its first run has begun. -/
def State.fickleBegun : State := .begun .fickle (.ofCapacity 1024) none 0

/-- A cycle that is left to itself makes a lone run. -/
theorem LoneRun.play {S : Setup} {i p : Nat} {b s : State} {done : List Beat} {cues : List Cue}
    (h : LoneRun S i p b done s) (playable : State.isPlayable S cues s = true)
    (own : ∀ c ∈ cues, c = .turn (.cycle i)) (said : s.beats i = b.beats i ++ done) :
    ∃ more, LoneRun S i p b (done ++ more) (s.play S cues) ∧
      (s.play S cues).beats i = b.beats i ++ (done ++ more) := by
  induction cues generalizing s done with
  | nil => exact ⟨[], by rwa [List.append_nil], by rwa [List.append_nil]⟩
  | cons c rest ih =>
    obtain ⟨first, later⟩ := Bool.and_eq_true_iff.1 playable
    cases own c List.mem_cons_self
    obtain ⟨entries, chronicle⟩ := (State.grows_step S (.cycle i) s).chronicle
    have beats : (s.step S (.cycle i)).beats i =
        s.beats i ++ entries.toList.filterMap fun x ↦ x.what.beat? i := by
      unfold State.beats State.view
      rw [chronicle, Array.toList_append, List.filterMap_append]
    obtain ⟨more, run, all⟩ := ih (h.step (.own first beats)) later
      (fun c hc ↦ own c (List.mem_cons_of_mem _ hc)) (by rw [beats, said, List.append_assoc])
    rw [List.append_assoc] at run all
    exact ⟨_, run, all⟩

/-- **The cycle of the fickle runs its course**: it serves, since its resource is starting again
when the start hook ends, and leaves it crashed. -/
theorem fickle_runs_its_course :
    Reaches .fickle (fun _ ↦ True) (.initial .fickle (.ofCapacity 1024) none 0)
        State.fickleBegun ∧
      State.fickleBegun.Begins 0 0 ∧
      State.RunsItsCourse .fickle 0 0 .notStarted State.fickleBegun ∧
      ∃ s, s.cycleIsOver 0 = true ∧ LoneRun .fickle 0 0 State.fickleBegun
        [.moves .starting, .calls .start, .moves .failed, .moves .starting, .returns .start .clean,
          .moves .running, .calls .serve, .returns .serve (.error (.fatal "boom")), .calls .stop,
          .returns .stop .clean, .moves .crashed] s := by
  obtain ⟨begins, status⟩ :=
    State.begins_begun (S := .fickle) Nat.one_pos (.ofCapacity 1024) none 0
  have scripts : Setup.fickle.ScriptsAt 0 (·.isFlinch = false) := by
    intro post hp n hook
    cases hp
    cases hook <;> simp [Setup.fickle, Setup.single, Behaviour.script, Act.isFlinch]
  have begun : Reaches .fickle (fun _ ↦ True) _ State.fickleBegun := State.reaches_begun
  have steady : State.fickleBegun.NeverFlinches .fickle 0 0 :=
    State.neverFlinches_of_scripts begun.fits.1 scripts (begun.hasLeft scripts) begins
  refine ⟨State.reaches_begun, begins,
    (cycle_runs_its_course_iff State.reaches_begun begins status).2 ⟨.inl rfl, steady⟩,
    State.fickleBegun.play .fickle (List.replicate 8 (.turn (.cycle 0))), by decide +kernel, ?_⟩
  have none : LoneRun .fickle 0 0 State.fickleBegun [] State.fickleBegun := .refl
  have playable : State.isPlayable .fickle (List.replicate 8 (.turn (.cycle 0))) State.fickleBegun =
      true := by decide +kernel
  obtain ⟨done, run, said⟩ := none.play playable (fun _ ↦ List.eq_of_mem_replicate)
    (List.append_nil _).symm
  have beats : State.fickleBegun.beats 0 ++ [.moves .starting, .calls .start, .moves .failed,
      .moves .starting, .returns .start .clean, .moves .running, .calls .serve,
      .returns .serve (.error (.fatal "boom")), .calls .stop, .returns .stop .clean,
      .moves .crashed] = State.fickleBegun.beats 0 ++ ([] ++ done) := by
    rw [← said]
    decide +kernel
  rw [List.append_cancel_left beats]
  exact run

/-! ### A hook that panics while it is called -/

/-- Serving its resource panics before there is anything to wait for. -/
def Setup.startled : Setup := .single fun _ ↦ { serve := [.flinch (.text "boom")] }

/-- Its first run has begun. -/
def State.startledBegun : State := .begun .startled (.ofCapacity 1024) none 0

/-- A hook that panics while it is called ends its cycle before the stop hook is called, and its
resource stays where it is. -/
theorem startled_breaks_off : ∃ done s, LoneRun .startled 0 0 State.startledBegun done s ∧
    s.cycleIsOver 0 = true ∧ .stop ∉ Beat.hooks done ∧ s.ensemble.status? 0 = some .running := by
  have none : LoneRun .startled 0 0 State.startledBegun [] State.startledBegun := .refl
  have playable : State.isPlayable .startled (List.replicate 4 (.turn (.cycle 0)))
      State.startledBegun = true := by decide +kernel
  obtain ⟨done, run, said⟩ := none.play playable (fun _ ↦ List.eq_of_mem_replicate)
    (List.append_nil _).symm
  have beats : State.startledBegun.beats 0 ++ [.moves .starting, .calls .start,
      .returns .start .clean, .moves .running, .calls .serve] =
      State.startledBegun.beats 0 ++ ([] ++ done) := by
    rw [← said]
    decide +kernel
  rw [← List.append_cancel_left beats] at run
  exact ⟨_, _, run, by decide +kernel, by decide, by decide +kernel⟩

/-! ### A startup deadline beyond every clock -/

/-- A resource that needs another; the hooks of both end at once. -/
def Setup.pair (settings : Settings) : Setup where
  settings := settings
  posts := #[{ name := "db", needs := [], behaviour := fun _ ↦ {} },
    { name := "api", needs := [0], behaviour := fun _ ↦ {} }]

/-- **A cycle may end without settling its resource.** Under a startup timeout that can be read, the
first cycle of a resource that needs another breaks before it calls a hook, and the resource stays
starting. -/
theorem wide_startup_breaks_off : ∃ settings b done s,
    Settings.ofText "\x7b\"startup_timeout\": 1e19\x7d" = .ok settings ∧
      Reaches (.pair settings) (fun _ ↦ True) (.atRest (.pair settings)) b ∧ b.Begins 1 1 ∧
      LoneRun (.pair settings) 1 1 b done s ∧ s.cycleIsOver 1 = true ∧
      s.ensemble.status? 1 = some .starting ∧ Status.starting.isTerminal = false := by
  obtain ⟨settings, read, far⟩ := exists_read_of_any
    "\x7b\"startup_timeout\": 1e19\x7d" (P := (·.startupTimeout.isBeyondClocks))
    (by decide +kernel)
  obtain ⟨begins, -⟩ :=
    State.begins_begun (S := .pair settings) Nat.one_lt_two (.ofCapacity 1024) none 0
  have beyond : ¬ (State.begun (.pair settings) (.ofCapacity 1024) none 0).IsWithinClocks
      (.pair settings) 1 1 := by
    rintro (none | near | ⟨c, hc, cancelled⟩)
    · exact absurd none (List.cons_ne_nil 0 [])
    · cases far.symm.trans near
    · cases (State.cycle_begun (S := .pair settings) Nat.one_lt_two).symm.trans hc
      cases cancelled
  obtain ⟨done, s, run, isOver, starting⟩ := State.exists_broken_loneRun begins beyond
  exact ⟨settings, _, done, s, read, State.reaches_begun, begins, run, isOver, starting, rfl⟩

end Supervision
