import Supervision.Proofs.Supervisor.Change

/-!
# What one step of a stop is made of

A stop begins when the host hears of the shutdown, and begins that itself if all it hears is a
signal, or that there are none to be heard (`State.hear`). From then on each of its steps takes the cycles that are left one after the
other: the first is told to end, unless it was told before; then it is found over, or given up at the
deadline, or waited for.

* `State.stopStep_stopFrom` — a step of a stop is one of these.
* `State.beginStop_of_near`, `State.beginStop_of_far` — how a stop begins.
-/

namespace Supervision

/-- The name of the resource in a place. -/
def Setup.nameAt (S : Setup) (p : Nat) : String := ((S.posts[p]?).map (·.name)).getD ""

namespace State

variable {S : Setup} {s : State}

/-- One step of a stop, from a state on, in which the first of the cycles that are left was `told` to
end before, or not. -/
inductive StopStep (S : Setup) (deadline : Nat) :
    Shutting → Bool → List (Nat × Nat) → State → State → Prop where
  /-- None is left. -/
  | ends (run : Shutting) (told : Bool) (s : State) :
      StopStep S deadline run told [] s (s.endStopping run)
  /-- The first is told to end. -/
  | tells {run : Shutting} {p c : Nat} {rest : List (Nat × Nat)} {s t : State}
      (later : StopStep S deadline run true ((p, c) :: rest) (s.cancelCycle c) t) :
      StopStep S deadline run false ((p, c) :: rest) s t
  /-- The first is over. -/
  | skips {run : Shutting} {p c : Nat} {rest : List (Nat × Nat)} {s t : State}
      (isOver : s.cycleIsOver c = true) (later : StopStep S deadline run false rest s t) :
      StopStep S deadline run true ((p, c) :: rest) s t
  /-- The first is given up. -/
  | aborts {run : Shutting} {p c : Nat} {rest : List (Nat × Nat)} {s t : State}
      (going : s.cycleIsOver c = false) (late : deadline ≤ s.now)
      (later : StopStep S deadline { run with stuck := run.stuck ++ [S.nameAt p] } false rest
        (s.abortCycle c) t) :
      StopStep S deadline run true ((p, c) :: rest) s t
  /-- The first is waited for. -/
  | waits {run : Shutting} {p c : Nat} {rest : List (Nat × Nat)} {s : State}
      (going : s.cycleIsOver c = false) (early : s.now < deadline) :
      StopStep S deadline run true ((p, c) :: rest) s
        { s with host := .stopping run deadline ((p, c) :: rest) }

/-- **A step of a stop is one of these.** -/
theorem stopStep_stopFrom (S : Setup) (run : Shutting) (deadline : Nat) (told : Bool)
    (left : List (Nat × Nat)) (s : State) :
    StopStep S deadline run told left s (s.stopFrom S run deadline told left) := by
  -- Cycles that are given up add to `run`, and only the first can have been told to end before.
  induction left generalizing run told s with
  | nil => exact .ends run told s
  | cons head rest ih =>
    obtain ⟨p, c⟩ := head
    have first : ∀ t : State, StopStep S deadline run true ((p, c) :: rest) t
        (t.stopFrom S run deadline true ((p, c) :: rest)) := by
      intro t
      unfold stopFrom
      dsimp only
      rw [if_pos rfl]
      split
      · exact .skips ‹_› (ih run false t)
      · have going : t.cycleIsOver c = false := Bool.eq_false_iff.2 ‹_›
        split
        · exact .aborts going ‹_› (ih _ false (t.abortCycle c))
        · exact .waits going (Nat.lt_of_not_le ‹_›)
    cases told with
    | true => exact first s
    | false => exact .tells (first (s.cancelCycle c))

/-! ### How a stop begins -/

/-- The host asks for the shutdown over signals only, and never escalates. -/
theorem unaskedCause_ne_escalated (s : State) (resource reason : String) :
    s.unaskedCause ≠ .escalated resource reason := by
  unfold unaskedCause
  split <;> nofun

/-- The host hears of the shutdown; if that has not begun, it begins now. -/
def hear (s : State) : State := if s.isRequested then s else (s.request s.unaskedCause).2

theorem hear_of_requested (begun : s.isRequested = true) : s.hear = s := if_pos begun

theorem hear_of_unasked (here : s.isRequested = false) : s.hear = (s.request s.unaskedCause).2 :=
  if_neg (Bool.eq_false_iff.1 here)

/-- Hearing of the shutdown touches nothing but the ensemble and the chronicle. -/
theorem hear_frame (s : State) :
    s.hear = { s with ensemble := s.hear.ensemble, chronicle := s.hear.chronicle } := by
  unfold hear
  split
  · rfl
  · exact request_frame s.unaskedCause s

theorem currentCycles_hear (s : State) : s.hear.currentCycles = s.currentCycles := by
  unfold currentCycles
  rw [hear_frame]

/-- What a run knows when its stop begins. -/
def opening (watcher : Nat) (hasRelay : Bool) (deaf : Option String) (s : State) : Shutting where
  watcher := watcher
  hasRelay := hasRelay
  cause := s.ensemble.shutdown.cause
  report := match s.ensemble.shutdown.cause with
    | some (.escalated _ _) => some s.unready
    | _ => none
  deaf := deaf

theorem beginStop_of_far (far : S.settings.grace.isBeyondClocks = true) (watcher : Nat)
    (hasRelay : Bool) (s : State) : s.beginStop S watcher hasRelay =
      { s.hear.close with host := .finished (.panicked deadlineOverflow) }.enter
        (.broke .host deadlineOverflow) := by
  unfold beginStop
  dsimp only
  exact if_pos far

/-- A stop begins with all current cycles, under a deadline that its grace sets. -/
theorem beginStop_of_near (near : S.settings.grace.isBeyondClocks = false) (watcher : Nat)
    (hasRelay : Bool) (s : State) : s.beginStop S watcher hasRelay =
      s.hear.close.stopFrom S (s.hear.opening watcher hasRelay s.heardDeaf)
        (s.now + S.settings.grace.millisUp) false s.currentCycles := by
  have now : s.hear.close.now = s.now := by
    show s.hear.now = s.now
    rw [hear_frame]
  rw [← currentCycles_hear, ← now]
  unfold beginStop
  dsimp only
  rw [near, if_neg Bool.false_ne_true]
  rfl

end State

end Supervision
