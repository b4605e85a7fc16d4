import Supervision.Proofs.Supervisor.Deadline

/-!
# What is left of the hooks

The acts that are left to a cycle in its hook come from the scripts of its resource. What holds of
every act of these scripts holds of what is left at every moment, whoever takes a step
(`Step.hasLeft`).
-/

namespace Supervision

/-- It holds of every act of every hook of the resource in a place. -/
def Setup.ScriptsAt (S : Setup) (p : Nat) (P : Act → Prop) : Prop :=
  ∀ post, S.posts[p]? = some post → ∀ n hook, ∀ a ∈ (post.behaviour n).script hook, P a

/-- It holds of every act that is left to the hook that the cycle is in. -/
def CycleStage.HasLeft (P : Act → Prop) : CycleStage → Prop
  | .inside _ acts _ _ => ∀ a ∈ acts, P a
  | _ => True

namespace State

variable {S : Setup} {P : Act → Prop} {i : Nat} {c : Cycle} {s t : State}

/-- It holds of what is left to every cycle of the resource in place `p`. -/
def HasLeft (p : Nat) (P : Act → Prop) (s : State) : Prop :=
  ∀ (i : Nat) (c : Cycle), s.cycles[i]? = some c → c.place = p → c.stage.HasLeft P

/-- All of its script is left to a hook that was only just called. -/
theorem hasLeft_callHook {place : Nat} (scripts : S.ScriptsAt place P) (hook : Hook) (exit : Exit)
    (hc : s.cycles[i]? = some c) :
    ∃ c', (s.callHook S i place hook exit).cycles[i]? = some c' ∧ c'.stage.HasLeft P := by
  obtain ⟨b, hb, called⟩ := getElem?_callHook_self (S := S) place hook exit hc
  exact ⟨_, called, hb.acts fun post hp n ↦ scripts post hp n hook⟩

/-- A step of a cycle leaves less of its hook, or all of the next. -/
theorem CycleStep.hasLeft (h : CycleStep S i c s t) (scripts : S.ScriptsAt c.place P)
    (hc : s.cycles[i]? = some c) (before : c.stage.HasLeft P) :
    ∃ c', t.cycles[i]? = some c' ∧ c'.stage.HasLeft P := by
  cases h with
  | rests => exact ⟨c, hc, before⟩
  | turnsAway => exact ⟨_, getElem?_endCycle_self hc, trivial⟩
  | begins fresh hm =>
    exact ⟨_, getElem?_setCycle_self _ (by rw [cycles_of_mark hm]; exact hc), trivial⟩
  | obeys => exact ⟨_, getElem?_leave c.place .stopped hc, trivial⟩
  | breaks | flinches => exact ⟨_, getElem?_setCycle_self (s := s) _ hc, trivial⟩
  | waits => exact ⟨_, getElem?_setCycle_self _ (getElem?_noteSeen hc), trivial⟩
  | starts => exact hasLeft_callHook scripts .start .clean (getElem?_noteSeen hc)
  | meets => exact ⟨_, getElem?_leave c.place .stopped (getElem?_noteSeen hc), trivial⟩
  | fails => exact ⟨_, getElem?_leave c.place _ (getElem?_noteSeen hc), trivial⟩
  | hooks inside step =>
    -- An act that is done leaves the rest; the next hook has all of its script left.
    rw [inside] at before
    cases step with
    | rests => exact ⟨c, hc, by rw [inside]; exact before⟩
    | acts left wake act first fewer =>
      exact ⟨_, getElem?_setCycle_self _ (by rw [act.cycles]; exact hc),
        fun a ha ↦ before a (fewer a ha)⟩
    | serves first hm =>
      exact hasLeft_callHook scripts .serve .clean (by rw [cycles_of_mark hm]; exact hc)
    | stops result next more => exact hasLeft_callHook scripts .stop next hc
    | settles result last =>
      exact ⟨_, getElem?_endCycle_self (by rw [cycles_settle]; exact hc), trivial⟩

end State

/-- **What holds of all that the hooks of a resource do holds of all that is left to them**, whoever
takes a step. -/
theorem Step.hasLeft {S : Setup} {admits : Deed → Prop} {P : Act → Prop} {p : Nat} {s s' : State}
    (h : Step S admits s s') (scripts : S.ScriptsAt p P) (ho : s.IsOrderly) (hs : s.HasLeft p P) :
    s'.HasLeft p P := by
  intro i c' hc' place'
  rcases h.turn_or_changes ho (· = .cycle i) with ⟨_, rfl, rfl⟩ | ⟨who, other, chain⟩
  · cases hc : s.cycles[i]? with
    | none =>
      rw [State.step_cycle_of_none hc, hc] at hc'
      cases hc'
    | some c =>
      have chain : Changes S admits (some (.cycle i)) s (s.step S (.cycle i)) :=
        State.changes_step (.cycle i) s ho
      obtain ⟨d, hd, same⟩ := chain.place hc
      cases hd.symm.trans hc'
      have place : c.place = p := same.symm.trans place'
      obtain ⟨d, hd, after⟩ :=
        (State.cycleStep_step hc).hasLeft (place ▸ scripts) hc (hs i c hc place)
      cases hd.symm.trans hc'
      exact after
  · rcases chain.cycle_of_other (other _ rfl) hc' with ⟨c, hc, place, same⟩ | ⟨-, fresh⟩ | ⟨gone, -⟩
    · rw [same]
      exact hs i c hc (place ▸ place')
    · rw [fresh]
      trivial
    · rw [gone]
      trivial

theorem Reaches.hasLeft {S : Setup} {admits : Deed → Prop} {P : Act → Prop} {p : Nat} {s : State}
    {bus : Bus} {recorder : Option Recorder} {now : Nat}
    (run : Reaches S admits (State.initial S bus recorder now) s) (scripts : S.ScriptsAt p P) :
    s.HasLeft p P := by
  refine (run.keeps (P := fun s ↦ s.IsOrderly ∧ s.HasLeft p P)
    (fun ⟨ho, hs⟩ step ↦ ⟨step.isOrderly ho, step.hasLeft scripts ho hs⟩)
    ⟨State.isOrderly_initial S bus recorder now, ?_⟩).2
  exact fun i c hc _ ↦ absurd (Array.mem_of_getElem? hc) (Array.not_mem_empty c)

end Supervision
