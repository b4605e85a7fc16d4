import Supervision.Proofs.Supervisor.Ending
import Supervision.Proofs.Supervisor.Meek
import Supervision.Proofs.Supervisor.FirstRun
import Supervision.Proofs.Supervisor.Yielding

/-!
# What a stop leaves a resource that ends when it is told to

A resource in hand (`State.IsInHand`) is one whose cycle is past its start hook, until that cycle
has run its stop hook and settled it; no step of the cycle changes that, if the resource is obliging
(`State.inHand_step`).

During a stop such a resource is due (`State.IsDue`) until it is through: its cycle is still to be
told to end, or was told in time. One step of the stop serves it (`State.stopFrom_isDue`): it
remains due, or the stop is over and it is through, or it was told too late.
-/

namespace Supervision

namespace State

/-! ### The last cycle of a resource -/

/-- Nothing but cycle `i` goes on of the resource in place `p`, and no restart of it waits for a
cycle. -/
structure IsLast (p i : Nat) (s : State) : Prop where
  alone : ∀ k, s.IsGoing p k → k = i
  calm : ∀ j c : Nat, s.restarts[j]? ≠ some ⟨p, .joining c⟩

/-- Cycle `i` is in a hook, past its start hook. -/
def IsPastStart (i : Nat) (s : State) : Prop :=
  ∃ c hook acts wake exit, s.cycles[i]? = some c ∧ c.stage = .inside hook acts wake exit ∧
    hook ≠ .start

/-- Cycle `i` of the resource in place `p` has ended, its stop hook has been run, and the resource
is settled. -/
structure IsThrough (p i : Nat) (s : State) : Prop where
  gone : s.cycleIsOver i = true
  stopped : ∃ x ∈ s.chronicle, ∃ exit, x.what = .returned i .stop exit
  settled : ∃ l, s.lifecycle? p = some l ∧ l.status.isTerminal = true

/-- Cycle `i` serves the resource in place `p`, or is through with it. -/
structure IsInHand (p i : Nat) (s : State) : Prop where
  here : ∃ c : Cycle, s.cycles[i]? = some c ∧ c.place = p
  begun : ∃ l, s.lifecycle? p = some l ∧ l.status ≠ .notStarted
  stands : s.IsPastStart i ∨ s.IsThrough p i

variable {S : Setup} {s t : State} {p i : Nat}

theorem IsPastStart.not_over (h : s.IsPastStart i) : s.cycleIsOver i = false := by
  obtain ⟨c, hook, acts, wake, exit, hc, inside, -⟩ := h
  exact cycleIsOver_eq_false hc (by rw [inside]; nofun)

/-- A cycle in hand that is over is through. -/
theorem IsInHand.isThrough (h : s.IsInHand p i) (gone : s.cycleIsOver i = true) :
    s.IsThrough p i := by
  rcases h.stands with going | through
  · rw [going.not_over] at gone
    cases gone
  · exact through

/-- What leaves the cycle in its stage and the resource in its status leaves it in hand. -/
theorem IsInHand.congr (h : s.IsInHand p i)
    (cycle : ∀ c, s.cycles[i]? = some c →
      ∃ c', t.cycles[i]? = some c' ∧ c'.place = c.place ∧ c'.stage = c.stage)
    (lifecycle : t.lifecycle? p = s.lifecycle? p) (grows : ∀ x ∈ s.chronicle, x ∈ t.chronicle) :
    t.IsInHand p i := by
  obtain ⟨c, hc, place⟩ := h.here
  obtain ⟨c', hc', place', stage⟩ := cycle c hc
  refine ⟨⟨c', hc', place'.trans place⟩, lifecycle ▸ h.begun, ?_⟩
  rcases h.stands with ⟨d, hook, acts, wake, exit, hd, inside, past⟩ | ⟨gone, stopped, settled⟩
  · rw [hc] at hd
    cases hd
    exact .inl ⟨c', hook, acts, wake, exit, hc', stage.trans inside, past⟩
  · obtain ⟨x, hx, exit, what⟩ := stopped
    refine .inr ⟨?_, ⟨x, grows x hx, exit, what⟩, lifecycle ▸ settled⟩
    rw [cycleIsOver_iff_of_some hc', stage]
    exact (cycleIsOver_iff_of_some hc).1 gone

/-! ### A step of the cycle -/

/-- A resource that has been started stays so, whatever it is marked. -/
theorem begun_mark {m : Mark} (h : s.mark p m = .ok t)
    (begun : ∃ l, s.lifecycle? p = some l ∧ l.status ≠ .notStarted) :
    ∃ l, t.lifecycle? p = some l ∧ l.status ≠ .notStarted := by
  obtain ⟨l, hl, started⟩ := begun
  obtain ⟨l', published, hm, hl'⟩ := lifecycle?_mark h hl
  refine ⟨l', hl', ?_⟩
  rcases Lifecycle.mark_eq_ok hm with ⟨-, -, same, -⟩ | ⟨target, -, moves⟩
  · rw [same]
    exact started
  · intro unstarted
    have legal := moves.legal
    rw [← moves.status, unstarted] at legal
    cases status : l.status <;> rw [status] at legal <;> cases legal

/-- A resource that has been started is settled at the end of its stop hook. -/
theorem settled_settle (exit : Exit)
    (begun : ∃ l, s.lifecycle? p = some l ∧ l.status ≠ .notStarted) :
    ∃ l, (s.settle p exit).lifecycle? p = some l ∧ l.status.isTerminal = true := by
  obtain ⟨l, hl, started⟩ := begun
  by_cases settled : l.status.isTerminal = true
  · refine ⟨l, ?_, settled⟩
    have same : s.settle p exit = s := by
      unfold settle
      rw [if_pos]
      have status : s.ensemble.status? p = some l.status :=
        (congrArg (Option.map Lifecycle.status) hl :)
      rw [status]
      exact settled
    rw [same]
    exact hl
  · have going : l.status = .starting ∨ l.status = .running :=
      Status.starting_or_running started (Bool.eq_false_iff.2 settled)
    obtain ⟨target, marks, terminal⟩ := exists_target_mark exit
    obtain ⟨l', published, hl', moves⟩ :=
      movesTo_tryMark marks (Status.allows_of_isTerminal going terminal) hl
    rw [settle_eq_tryMark exit hl going]
    exact ⟨l', hl', moves.status ▸ terminal⟩

/-- A hook of a cycle in hand, past the start hook, leaves the resource in hand. -/
theorem HookStep.inHand {c : Cycle} {hook : Hook} {acts : List Act} {wake : Option Nat}
    {exit : Exit} (h : HookStep S i p hook acts exit s t) (hc : s.cycles[i]? = some c)
    (place : c.place = p) (inside : c.stage = .inside hook acts wake exit) (past : hook ≠ .start)
    (begun : ∃ l, s.lifecycle? p = some l ∧ l.status ≠ .notStarted) : t.IsInHand p i := by
  cases h with
  | rests => exact ⟨⟨c, hc, place⟩, begun, .inl ⟨c, hook, acts, wake, exit, hc, inside, past⟩⟩
  | @acts a u left wake act first fewer =>
    have here : (u.setCycle i (.inside hook left wake exit)).cycles[i]? =
        some { c with stage := .inside hook left wake exit } :=
      getElem?_setCycle_self _ (by rw [act.cycles]; exact hc)
    refine ⟨⟨_, here, place⟩, ?_, .inl ⟨_, _, _, _, _, here, rfl, past⟩⟩
    show ∃ l, u.lifecycle? p = some l ∧ l.status ≠ .notStarted
    cases act with
    | idle => exact begun
    | mark hm _ => exact begun_mark hm begun
    | note text => exact begun
    | @request cause text act =>
      show ∃ l, (s.request cause).2.lifecycle? p = some l ∧ _
      rw [lifecycle?_request]
      exact begun
  | serves first => exact absurd first past
  | stops result before more =>
    obtain ⟨b, -, called⟩ := getElem?_callHook_self (S := S) p .stop before
      (s := s.enter (.returned i hook result)) hc
    refine ⟨⟨_, called, place⟩, ?_, .inl ⟨_, _, _, _, _, called, rfl, nofun⟩⟩
    rw [lifecycle?_callHook]
    exact begun
  | settles result last =>
    obtain ⟨l, hl, terminal⟩ := settled_settle (s := s.enter (.returned i hook result)) exit begun
    have before : ((s.enter (.returned i hook result)).settle p exit).cycles[i]? = some c := by
      rw [cycles_settle]
      exact hc
    have here := getElem?_endCycle_self before
    obtain ⟨more, settled⟩ := (grows_settle p exit (s.enter (.returned i hook result))).chronicle
    refine ⟨⟨_, here, place⟩, ⟨l, hl, fun none ↦ ?_⟩, .inr ⟨?_, ?_, l, hl, terminal⟩⟩
    · rw [none] at terminal
      cases terminal
    · exact (cycleIsOver_iff_of_some here).2 rfl
    · have noted : ⟨s.now, .returned i hook result⟩ ∈
          ((s.enter (.returned i hook result)).settle p exit).chronicle := by
        rw [settled]
        exact Array.mem_append_left _ Array.mem_push_self
      exact ⟨_, Array.mem_push_of_mem _ noted, result, by rw [last]⟩

/-- A step of a cycle in a hook is one of the hook, unless the hook panics while it is called. -/
theorem hookStep_step {c : Cycle} {hook : Hook} {acts : List Act} {wake : Option Nat} {exit : Exit}
    (hc : s.cycles[i]? = some c) (inside : c.stage = .inside hook acts wake exit)
    (steady : ∀ a ∈ acts, a.isFlinch = false) :
    HookStep S i c.place hook acts exit s (s.step S (.cycle i)) := by
  show HookStep S i c.place hook acts exit s (s.stepCycle S i)
  unfold stepCycle
  rw [hc]
  dsimp only
  rw [inside]
  cases acts with
  | nil => exact hookStep_leaveHook S i c.place hook [] .clean exit s
  | cons a rest => exact hookStep_doAct c hook (steady a List.mem_cons_self) rest wake exit s

/-- A step of the cycle that serves an obliging resource leaves the resource in hand. -/
theorem inHand_step (h : s.IsInHand p i) (yields : s.Yields p) :
    (s.step S (.cycle i)).IsInHand p i := by
  obtain ⟨c, hc, rfl⟩ := h.here
  rcases h.stands with ⟨d, hook, acts, wake, exit, hd, inside, past⟩ | through
  · rw [hc] at hd
    cases hd
    have acts : ∀ a ∈ acts, a.YieldsIn hook := by
      have here := yields i c hc rfl
      rw [inside] at here
      exact (here past).1
    have step := hookStep_step (S := S) hc inside fun a ha ↦ (acts a ha).isFlinch
    exact step.inHand hc rfl inside past h.begun
  · rw [step_finished hc ((cycleIsOver_iff_of_some hc).1 through.gone)]
    exact h

/-- Cycle `i` was told to end. -/
def IsToldToEnd (i : Nat) (s : State) : Prop :=
  ∃ c : Cycle, s.cycles[i]? = some c ∧ c.cancelled = true

/-! ### What a stop comes to for one resource -/

/-- The name of the resource in place `p` is not yet among those who were given up, and its cycle
`i` is still to be told to end, or was told in time, or is through. With `told`, the first of those
that are left was told before. -/
structure IsDue (S : Setup) (p i : Nat) (told : Bool) (run : Shutting) (deadline : Nat)
    (left : List (Nat × Nat)) (s : State) : Prop where
  unnamed : S.nameAt p ∉ run.stuck
  hand : s.IsInHand p i
  apart : ∀ x ∈ left, (x.2 = i → x.1 = p) ∧ (x.1 = p → x.2 = i) ∧
    (x.1 ≠ p → S.nameAt x.1 ≠ S.nameAt p)
  stands : (p, i) ∈ (if told = true then left.tail else left) ∨
    (told = true ∧ left.head? = some (p, i) ∧ s.IsToldToEnd i ∧
      (s.cycleIsOver i = true ∨ s.now < deadline)) ∨
    s.cycleIsOver i = true

/-- What one step of a stop comes to for the resource in place `p`: the stop goes on, and so does
what it is due; or it ends, and the resource is cleaned up, or was told only now, when the deadline
was over, and is named. -/
inductive Served (S : Setup) (p i : Nat) (told : Bool) (deadline : Nat) (left : List (Nat × Nat))
    (s t : State) : Prop where
  | waits {run : Shutting} {later : List (Nat × Nat)} (host : t.host = .stopping run deadline later)
      (due : IsDue S p i true run deadline later t) : Served S p i told deadline left s t
  | cleaned {final : Shutting} (host : t.host = .joiningWatcher final)
      (unnamed : S.nameAt p ∉ final.stuck) (through : t.IsThrough p i) :
      Served S p i told deadline left s t
  | late {final : Shutting} (host : t.host = .joiningWatcher final)
      (named : S.nameAt p ∈ final.stuck) (past : deadline ≤ s.now)
      (untold : (p, i) ∈ if told = true then left.tail else left) :
      Served S p i told deadline left s t

theorem inHand_cancelCycle (c : Nat) (h : s.IsInHand p i) : (s.cancelCycle c).IsInHand p i := by
  refine h.congr (fun b hb ↦ ?_) rfl fun x hx ↦ Array.mem_push_of_mem _ hx
  rw [getElem?_cancelCycle, hb]
  split
  · exact ⟨_, rfl, rfl, rfl⟩
  · exact ⟨b, rfl, rfl, rfl⟩

theorem inHand_abortCycle_of_ne {c : Nat} (ne : i ≠ c) (h : s.IsInHand p i) :
    (s.abortCycle c).IsInHand p i := by
  refine h.congr (fun b hb ↦ ⟨b, ?_, rfl, rfl⟩) rfl fun x hx ↦ Array.mem_push_of_mem _ hx
  exact (getElem?_setCycle_of_ne .finished ne).trans hb

theorem isToldToEnd_cancelCycle (h : s.IsInHand p i) : (s.cancelCycle i).IsToldToEnd i := by
  obtain ⟨c, hc, -⟩ := h.here
  refine ⟨{ c with cancelled := true }, ?_, rfl⟩
  rw [getElem?_cancelCycle, if_pos rfl, hc]
  rfl

section Stop

variable {told : Bool} {run : Shutting} {deadline q c : Nat} {left rest : List (Nat × Nat)}

/-- The state in which the first of those that are left was told to end. -/
def afterTelling (told : Bool) (c : Nat) (s : State) : State := if told then s else s.cancelCycle c

theorem IsDue.inHand_afterTelling (due : IsDue S p i told run deadline left s) (c : Nat) :
    (s.afterTelling told c).IsInHand p i := by
  unfold afterTelling
  split
  · exact due.hand
  · exact inHand_cancelCycle c due.hand

theorem now_afterTelling : (s.afterTelling told c).now = s.now := by
  unfold afterTelling
  split <;> rfl

theorem cycleIsOver_afterTelling (k : Nat) :
    (s.afterTelling told c).cycleIsOver k = s.cycleIsOver k := by
  unfold afterTelling
  split
  · rfl
  · exact cycleIsOver_cancelCycle c k

/-- Of what is left after the first: it is due as before, if it is not the first itself. -/
theorem IsDue.later (due : IsDue S p i told run deadline ((q, c) :: rest) s) (ne : i ≠ c) :
    (p, i) ∈ rest ∨ s.cycleIsOver i = true := by
  rcases due.stands with listed | ⟨-, first, -⟩ | gone
  · refine .inl ?_
    split at listed
    · exact listed
    · exact (List.mem_cons.1 listed).resolve_left fun same ↦ ne (Prod.mk.inj same).2
  · exact absurd (Prod.mk.inj (Option.some.inj first)).2.symm ne
  · exact .inr gone

/-- The first cycle is over, and the stop goes on to the next. -/
theorem IsDue.skip (due : IsDue S p i told run deadline ((q, c) :: rest) s)
    (gone : s.cycleIsOver c = true) :
    IsDue S p i false run deadline rest (s.afterTelling told c) where
  unnamed := due.unnamed
  hand := due.inHand_afterTelling c
  apart x hx := due.apart x (List.mem_cons_of_mem _ hx)
  stands := by
    rw [cycleIsOver_afterTelling]
    by_cases same : i = c
    · exact .inr (.inr (same ▸ gone))
    · exact (due.later same).imp id .inr

/-- Another cycle is given up and named. -/
theorem IsDue.abort (due : IsDue S p i told run deadline ((q, c) :: rest) s) (ne : i ≠ c) :
    IsDue S p i false { run with stuck := run.stuck ++ [S.nameAt q] } deadline rest
      ((s.afterTelling told c).abortCycle c) where
  unnamed := by
    have other : S.nameAt q ≠ S.nameAt p := by
      obtain ⟨-, only, other⟩ := due.apart (q, c) List.mem_cons_self
      exact other fun place ↦ ne (only place).symm
    rw [List.mem_append, List.mem_singleton]
    exact fun named ↦ named.elim due.unnamed other.symm
  hand := inHand_abortCycle_of_ne ne (due.inHand_afterTelling c)
  apart x hx := due.apart x (List.mem_cons_of_mem _ hx)
  stands := by
    rw [cycleIsOver_abortCycle_of_ne ne, cycleIsOver_afterTelling]
    exact (due.later ne).imp id .inr

/-- The stop waits for the first cycle, which was told in time. -/
theorem IsDue.wait (due : IsDue S p i told run deadline ((q, c) :: rest) s)
    (early : s.now < deadline) {t : State}
    (same : t = { s.afterTelling told c with host := t.host }) :
    IsDue S p i true run deadline ((q, c) :: rest) t := by
  have hand : t.IsInHand p i := by
    rw [same]
    exact (due.inHand_afterTelling c).congr (fun b hb ↦ ⟨b, hb, rfl, rfl⟩) rfl fun _ hx ↦ hx
  have gone : t.cycleIsOver i = s.cycleIsOver i := by
    rw [same]
    exact cycleIsOver_afterTelling i
  have now : t.now = s.now := by
    rw [same]
    exact now_afterTelling
  refine ⟨due.unnamed, hand, due.apart, ?_⟩
  rw [gone, now]
  cases told with
  | true =>
    refine due.stands.imp_right (Or.imp_left fun ⟨_, first, isTold, _⟩ ↦
      ⟨rfl, first, ?_, .inr early⟩)
    rw [same]
    exact isTold
  | false =>
    by_cases first : i = c
    · subst first
      have place : q = p := (due.apart (q, i) List.mem_cons_self).1 rfl
      subst place
      refine .inr (.inl ⟨rfl, rfl, ?_, .inr early⟩)
      rw [same]
      exact isToldToEnd_cancelCycle due.hand
    · exact (due.later first).imp id .inr

theorem IsInHand.endStopping (h : s.IsInHand p i) (run : Shutting) :
    (s.endStopping run).IsInHand p i := by
  refine h.congr (fun b hb ↦ ⟨b, hb, rfl, rfl⟩) rfl fun x hx ↦ ?_
  exact Array.mem_push_of_mem _ (Array.mem_push_of_mem _ hx)

/-- The resource itself is given up when it is told, as the deadline is over, and so are all that
are left. -/
theorem IsDue.late (due : IsDue S p i told run deadline ((q, i) :: rest) s)
    (going : ¬ s.cycleIsOver i = true) (late : deadline ≤ s.now) :
    Served S p i told deadline ((q, i) :: rest) s
      (((s.afterTelling told i).abortCycle i).stopFrom S
        { run with stuck := run.stuck ++ [S.nameAt q] } deadline false rest) := by
  have place : q = p := (due.apart (q, i) List.mem_cons_self).1 rfl
  have untold : (p, i) ∈ if told = true then rest else (q, i) :: rest := by
    rcases due.stands with listed | ⟨-, -, -, gone | early⟩ | gone
    · exact listed
    · exact absurd gone going
    · exact absurd late (Nat.not_le_of_lt early)
    · exact absurd gone going
  have now : ((s.afterTelling told i).abortCycle i).now = s.now := now_afterTelling
  have outcome := stopFrom_outcome (S := S) { run with stuck := run.stuck ++ [S.nameAt q] } deadline
    false rest ((s.afterTelling told i).abortCycle i)
  cases outcome with
  | waits later early => exact absurd (now ▸ early) (Nat.not_lt_of_le late)
  | ends final host known =>
    exact .late host (place ▸ known _ (List.mem_append_right _ List.mem_cons_self)) late untold

/-- **What one step of a stop comes to** for a resource that it is due. -/
theorem stopFrom_isDue (left : List (Nat × Nat)) (told : Bool) (run : Shutting) (s : State)
    (due : IsDue S p i told run deadline left s) :
    Served S p i told deadline left s (s.stopFrom S run deadline told left) := by
  induction left generalizing told run s with
  | nil =>
    have gone : s.cycleIsOver i = true := by
      rcases due.stands with listed | ⟨-, first, -⟩ | gone
      · cases told <;> cases listed
      · cases first
      · exact gone
    have gone' : (s.endStopping run).cycleIsOver i = true := gone
    exact .cleaned rfl due.unnamed ((due.hand.endStopping run).isThrough gone')
  | cons head rest ih =>
    obtain ⟨q, c⟩ := head
    have rest_of {u : State} (now : u.now = s.now) {t : State}
        (h : Served S p i false deadline rest u t) :
        Served S p i told deadline ((q, c) :: rest) s t := by
      cases h with
      | waits host due => exact .waits host due
      | cleaned host unnamed through => exact .cleaned host unnamed through
      | late host named past untold =>
        refine .late host named (now ▸ past) ?_
        split
        · exact untold
        · exact List.mem_cons_of_mem _ untold
    show Served S p i told deadline ((q, c) :: rest) s
      (if (s.afterTelling told c).cycleIsOver c then
        (s.afterTelling told c).stopFrom S run deadline false rest
      else if deadline ≤ (s.afterTelling told c).now then
        ((s.afterTelling told c).abortCycle c).stopFrom S
          { run with stuck := run.stuck ++ [S.nameAt q] } deadline false rest
      else { s.afterTelling told c with host := .stopping run deadline ((q, c) :: rest) })
    rw [cycleIsOver_afterTelling, now_afterTelling]
    split
    · exact rest_of now_afterTelling (ih false run _ (due.skip ‹_›))
    · rename_i going
      split
      · rename_i late
        by_cases same : i = c
        · subst same
          exact due.late (going : ¬ _) late
        · exact rest_of (u := (s.afterTelling told c).abortCycle c) now_afterTelling
            (ih false _ _ (due.abort same))
      · exact .waits rfl (due.wait (Nat.lt_of_not_le ‹_›) rfl)

end Stop

end State

end Supervision
