import Supervision.Proofs.Supervisor.Entries

/-!
# Halves of a step

A watcher that acts on a failure, and a confirmation that sees its resource ready, change an account
first and speak of it then. On one thread nothing comes in between, and a step is both halves in a
row. On several threads somebody may be held up in the middle (`HeldUp`): others go on from there,
and the second half is done wherever they have got to. What is shown of steps is not claimed of
that; what it may come to is shown where it matters.

* `HeldUp.step_eq` — a step is its halves in a row.
* `HeldUp.events_eq` — the first half says nothing.
-/

namespace Supervision

/-- In a state a task is in the middle of its step: it has got to another state, and the rest is
still to be done. -/
inductive HeldUp (S : Setup) (s : State) : Task → State → (State → State) → Prop where
  /-- A watcher has decided about a failure. -/
  | watcher {i head next place : Nat} {m : Move} {d : Decision} {t : State}
      (hw : s.watchers[i]? = some ⟨head, false⟩) (here : s.isRequested = false)
      (news : s.ensemble.bus.receive head = .event (.transition m) next)
      (failed : m.target = .failed) (hp : S.place? m.resource = some place)
      (judged : (s.setWatcher i ⟨next, false⟩).judge S place = .ok (d, t)) :
      HeldUp S s (.watcher i) t
        (·.announce m.resource ((m.failure.map (·.message)).getD "failed") place d)
  /-- A confirmation has taken the count of its resource, which runs and is ready. -/
  | confirmation {i : Nat} {c : Confirmation} {w : Wait} (hc : s.confirmations[i]? = some c)
      (asks : c.stage = .waiting w ∨
        c.stage = .fresh ∧ w = .start s.now S.settings.confirmTimeout [c.place])
      (ready : (s.ensemble.look s.now w).result? = some .ready)
      (running : s.ensemble.status? c.place = some .running) :
      HeldUp S s (.confirmation i)
        ((s.enter (.sawReady (.confirmation i) [c.place])).takeCount c.place).2
        fun u ↦ (u.tellRecovery S c.place (s.account c.place).attempts).endConfirmation i

namespace HeldUp

variable {S : Setup} {s t : State} {k : Task} {rest : State → State}

/-- **A step is its halves in a row.** -/
theorem step_eq (h : HeldUp S s k t rest) : s.step S k = rest t := by
  cases h with
  | @watcher i head next place m d t hw here news failed hp judged =>
    -- The watcher moves on along the bus before it looks at the shutdown again.
    have unasked : (s.setWatcher i ⟨next, false⟩).isRequested = false := here
    have acts : (s.setWatcher i ⟨next, false⟩).onEvent S (.transition m) =
        ⟨t.announce m.resource ((m.failure.map (·.message)).getD "failed") place d, none⟩ := by
      unfold State.onEvent
      rw [if_pos (show (Event.transition m).kind = .transition from rfl)]
      dsimp only [Event.transition]
      rw [failed]
      dsimp only
      unfold State.onFailed
      rw [unasked, if_neg Bool.false_ne_true, hp]
      dsimp only
      rw [judged]
    show s.stepWatcher S i = _
    unfold State.stepWatcher
    rw [hw]
    dsimp only
    rw [here, if_neg Bool.false_ne_true, if_neg Bool.false_ne_true, news]
    dsimp only
    rw [acts]
    rfl
  | @confirmation i c w hc asks ready running =>
    have looks : s.step S (.confirmation i) = s.confirmIn S i c.place w := by
      show s.stepConfirmation S i = _
      unfold State.stepConfirmation
      rw [hc]
      dsimp only
      rcases asks with waiting | ⟨fresh, rfl⟩
      · rw [waiting]
      · rw [fresh]
    rw [looks]
    unfold State.confirmIn
    dsimp only
    rw [ready]
    dsimp only
    have still : (s.enter (.sawReady (.confirmation i) [c.place])).ensemble.status? c.place =
        some .running := running
    unfold State.confirm
    rw [if_pos still]
    rfl

/-- **The first half of a step says nothing.** -/
theorem events_eq (h : HeldUp S s k t rest) : t.events = s.events := by
  cases h with
  | watcher hw here news failed hp judged =>
    refine State.events_of_chronicle ?_
    unfold State.judge at judged
    dsimp only at judged
    split at judged
    · cases judged
    · split at judged
      all_goals
        cases judged
        rfl
  | confirmation hc asks ready running => exact State.events_enter_of_quiet (by rfl)

end HeldUp

end Supervision
