import Supervision.Recording.Pass

/-!
# What becomes of what was taken

What was taken into the queue of a writer has gone to the store in passes, is in hand, or still
waits, in this order (`Trace.HasPassed`). Nothing is lost on the way and nothing is taken twice, and
the signs given are those of the passes. A writer that is done holds nothing and leaves nothing
behind, because it closed its queue before it looked at it for the last time (`Trace.IsOrderly`).

What a step can do is said once (`Writer.Stride`), and so is what others can do to a writer
(`Trace.Offered`). Both invariants are kept by the one and by the other.

* `Trace.exists_hasPassed` — at every moment of every run there are such passes.
-/

namespace Supervision

/-! ### Where a writer stands -/

namespace WriterStage

/-- The batch in hand. -/
def batch : WriterStage → Batch
  | .filling b | .writing b _ | .emptying b | .closing b => b
  | .waiting | .ended => {}

/-- The queue was closed. -/
def isLast : WriterStage → Bool
  | .writing _ last => last
  | .emptying _ | .closing _ | .ended => true
  | .waiting | .filling _ => false

/-- The closed queue was found empty. -/
def isThrough : WriterStage → Bool
  | .closing _ | .ended => true
  | .waiting | .filling _ | .writing _ _ | .emptying _ => false

theorem isLast_of_isThrough {stage : WriterStage} (h : stage.isThrough = true) :
    stage.isLast = true := by
  cases stage <;> first | rfl | cases h

theorem batch_of_atStore? {stage : WriterStage} {b : Batch} (h : stage.atStore? = some b) :
    stage.batch = b := by
  cases stage <;> first | exact Option.some.inj h | cases h

end WriterStage

/-! ### What a step can do -/

namespace Writer

/-- What a step can make of a writer. -/
inductive Stride (faults : BatchFaults) (w : Writer) : Writer → Prop
  /-- There is nothing to do. -/
  | rests (idle : w.stage.atStore? = none) : Stride faults w w
  /-- The word to stop: nothing more is let in. -/
  | closes (waits : w.stage = .waiting) :
    Stride faults w { w with sink := w.sink.close, stage := .emptying {} }
  /-- What is next comes into the batch. -/
  | takes {op : WriteOp} {rest : List WriteOp} {stage : WriterStage}
    (next : w.sink.queue = op :: rest) (idle : w.stage.atStore? = none)
    (batch : stage.batch = w.stage.batch.push op) (last : stage.isLast = w.stage.isLast)
    (open_ : stage.isThrough = false) :
    Stride faults w { w with sink := { w.sink with queue := rest }, stage := stage }
  /-- The batch is as full as it gets. -/
  | sends {stage : WriterStage} (idle : w.stage.atStore? = none)
    (batch : stage.batch = w.stage.batch) (last : stage.isLast = w.stage.isLast)
    (through : stage.isThrough = true → w.sink.queue = []) :
    Stride faults w { w with stage := stage }
  /-- The store is done with the batch. -/
  | gives {b : Batch} {stage : WriterStage} (atStore : w.stage.atStore? = some b)
    (empty : stage.batch = {}) (last : stage.isLast = w.stage.isLast)
    (through : stage.isThrough = true → w.stage.isThrough = true) :
    Stride faults w (w.write faults b stage)

/-- What a step does is one of these. -/
theorem stride_step (faults : BatchFaults) (w : Writer) : w.Stride faults (w.step faults) := by
  rw [step]
  split
  case h_1 at_ =>
    split
    · exact .closes at_
    · split
      · exact .rests (by rw [at_]; rfl)
      · exact .takes ‹_› (by rw [at_]; rfl) (by rw [at_]; rfl) (by rw [at_]; rfl) rfl
  case h_2 b at_ =>
    split
    · exact .sends (by rw [at_]; rfl) (by rw [at_]; rfl) (by rw [at_]; rfl) nofun
    · split
      · exact .takes ‹_› (by rw [at_]; rfl) (by rw [at_]; rfl) (by rw [at_]; rfl) rfl
      · exact .sends (by rw [at_]; rfl) (by rw [at_]; rfl) (by rw [at_]; rfl) nofun
  case h_3 b last at_ =>
    have atStore : w.stage.atStore? = some b := by rw [at_]; rfl
    cases last with
    | true => exact .gives atStore rfl (by rw [at_]; rfl) nofun
    | false => exact .gives atStore rfl (by rw [at_]; rfl) nofun
  case h_4 b at_ =>
    split
    · exact .sends (by rw [at_]; rfl) (by rw [at_]; rfl) (by rw [at_]; rfl) fun _ ↦ ‹_›
    · have idle : w.stage.atStore? = none := by rw [at_]; rfl
      dsimp only
      split
      · exact .takes ‹_› idle (by rw [at_]; rfl) (by rw [at_]; rfl) rfl
      · exact .takes ‹_› idle (by rw [at_]; rfl) (by rw [at_]; rfl) rfl
  case h_5 b at_ =>
    exact .gives (by rw [at_]; rfl) rfl (by rw [at_]; rfl) fun _ ↦ by rw [at_]; rfl
  case h_6 at_ => exact .rests (by rw [at_]; rfl)

end Writer

/-! ### What others can do -/

namespace Sink

theorem open_of_accepted {w : Write} {s : Sink} (h : (s.offer w).1 = true) : s.closed = false := by
  cases closed : s.closed with
  | false => rfl
  | true =>
    rw [offer, closed] at h
    split at h <;> exact absurd h Bool.false_ne_true

theorem offer_disabled {w : Write} {s : Sink} (h : s.enabled = false) :
    s.offer w = (false, [], s) := by
  rw [offer, h]
  rfl

theorem open_of_takesSign {s : Sink} (h : s.takesSign = true) : s.closed = false := by
  rw [takesSign, Bool.and_eq_true, Bool.and_eq_true, Bool.not_eq_true'] at h
  exact h.1.2

theorem open_of_takesKept {s : Sink} (h : s.takesKept = true) : s.closed = false := by
  rw [takesKept, Bool.and_eq_true, Bool.and_eq_true, Bool.not_eq_true'] at h
  exact h.1.2

end Sink

namespace Trace

/-- Others have been at the queue: more may have been taken in, unless the queue is closed, and what
was refused was counted. Whatever belongs to the writer is as it was. -/
structure Offered (t t' : Trace) : Prop where
  stage : t'.writer.stage = t.writer.stage
  store : t'.writer.store = t.writer.store
  given : t'.writer.given = t.writer.given
  calls : t'.calls = t.calls
  enabled : t'.writer.sink.enabled = t.writer.sink.enabled
  closed : t'.writer.sink.closed = t.writer.sink.closed
  more : ∃ ops, t'.taken = t.taken ++ ops ∧
    t'.writer.sink.queue = t.writer.sink.queue ++ ops ∧
    (t.writer.sink.closed = true → ops = [])
  counted : t.writer.sink.enabled = true →
    t'.refused + t.writer.sink.dropped = t.refused + t'.writer.sink.dropped

/-- Nothing more was taken in. -/
theorem Offered.of_sink (t : Trace) {sink : Sink} (stop : Bool) (refused : Nat)
    (queue : sink.queue = t.writer.sink.queue) (enabled : sink.enabled = t.writer.sink.enabled)
    (closed : sink.closed = t.writer.sink.closed)
    (counted : t.writer.sink.enabled = true →
      refused + t.writer.sink.dropped = t.refused + sink.dropped) :
    t.Offered { t with writer := { t.writer with sink := sink, stop := stop }, refused := refused } :=
  ⟨rfl, rfl, rfl, rfl, enabled, closed,
    ⟨[], (List.append_nil _).symm, queue.trans (List.append_nil _).symm, fun _ ↦ rfl⟩, counted⟩

/-- One thing more was taken in. -/
theorem Offered.of_op (t : Trace) {sink : Sink} (op : WriteOp)
    (open_ : t.writer.sink.closed = false) (queue : sink.queue = t.writer.sink.queue ++ [op])
    (enabled : sink.enabled = t.writer.sink.enabled)
    (closed : sink.closed = t.writer.sink.closed)
    (dropped : sink.dropped = t.writer.sink.dropped) :
    t.Offered { t with writer := { t.writer with sink := sink }, taken := t.taken ++ [op] } :=
  ⟨rfl, rfl, rfl, rfl, enabled, closed,
    ⟨[op], rfl, queue, fun h ↦ absurd (open_.symm.trans h) Bool.false_ne_true⟩,
    fun _ ↦ congrArg (t.refused + ·) dropped.symm⟩

/-- Every move that is not a step is of this kind. -/
theorem offered_or_step (t : Trace) (m : WriterMove) :
    t.Offered (t.move m) ∨ ∃ faults, m = .step faults := by
  cases m with
  | step faults => exact .inr ⟨faults, rfl⟩
  | stop => exact .inl <| .of_sink t true t.refused rfl rfl rfl fun _ ↦ rfl
  | giveBack =>
    exact .inl <| .of_sink t t.writer.stop t.refused rfl rfl rfl fun _ ↦ rfl
  | keep =>
    refine .inl ?_
    rw [move, Sink.keep]
    split
    · exact .of_sink t t.writer.stop t.refused rfl rfl rfl fun _ ↦ rfl
    · exact .of_sink t t.writer.stop t.refused rfl rfl rfl fun _ ↦ rfl
  | sign ticket =>
    refine .inl ?_
    rw [move, Sink.putSign]
    by_cases takes : t.writer.sink.takesSign = true
    · rw [if_pos takes, if_pos takes]
      exact .of_op t _ (Sink.open_of_takesSign takes) rfl rfl rfl rfl
    · rw [if_neg takes, if_neg takes]
      exact .of_sink t t.writer.stop t.refused rfl rfl rfl fun _ ↦ rfl
  | signKept ticket =>
    refine .inl ?_
    rw [move, Sink.putKept]
    by_cases takes : t.writer.sink.takesKept = true
    · rw [if_pos takes, if_pos takes]
      exact .of_op t _ (Sink.open_of_takesKept takes) rfl rfl rfl rfl
    · rw [if_neg takes, if_neg takes]
      exact .of_sink t t.writer.stop t.refused rfl rfl rfl fun _ ↦ rfl
  | offer x =>
    refine .inl ?_
    show t.Offered (if (t.writer.sink.offer x).1 then
      { t with
        writer := { t.writer with sink := (t.writer.sink.offer x).2.2 }
        taken := t.taken ++ [.write x] }
      else
      { t with
        writer := { t.writer with sink := (t.writer.sink.offer x).2.2 }
        refused := t.refused + 1 })
    by_cases taken : (t.writer.sink.offer x).1 = true
    · rw [if_pos taken, Sink.offer_accepted taken]
      exact .of_op t _ (Sink.open_of_accepted taken) rfl rfl rfl rfl
    · rw [if_neg taken]
      cases enabled : t.writer.sink.enabled with
      | false =>
        rw [Sink.offer_disabled enabled]
        refine .of_sink t t.writer.stop (t.refused + 1) rfl rfl rfl fun h ↦ ?_
        exact absurd (enabled.symm.trans h) Bool.false_ne_true
      | true =>
        rw [Sink.offer_refused enabled (Bool.eq_false_iff.mpr taken)]
        refine .of_sink t t.writer.stop (t.refused + 1) rfl rfl rfl fun _ ↦ ?_
        show t.refused + 1 + t.writer.sink.dropped = t.refused + (t.writer.sink.dropped + 1)
        omega

/-- What is kept by whatever others do, and by every step, holds in every run. -/
theorem moves_keeps {P : Trace → Prop} (offered : ∀ t t', P t → t.Offered t' → P t')
    (step : ∀ t faults, P t → P (t.move (.step faults))) {t : Trace} (h : P t)
    (ms : List WriterMove) : P (t.moves ms) := by
  induction ms generalizing t with
  | nil => exact h
  | cons m ms ih =>
    rcases t.offered_or_step m with change | ⟨faults, rfl⟩
    · exact ih (offered _ _ h change)
    · exact ih (step _ faults h)

/-! ### Passes -/

/-- What was taken into the queue went to the store in the passes `ps`, is in hand (`held`), or
still waits, in this order. -/
structure HasPassed (s : Store) (ps : List Pass) (held : List WriteOp) (t : Trace) : Prop where
  /-- Everything is somewhere. -/
  taken : t.taken = ps.flatMap (·.ops) ++ held ++ t.writer.sink.queue
  /-- The batch holds what is in hand. -/
  batch : t.writer.stage.batch = .ofOps held
  /-- The passes are the calls of the store. -/
  calls : t.calls = ps.map (·.toStoreCall)
  /-- These lead to the store as it is. -/
  lead : StoreCall.Lead t.calls s t.writer.store
  /-- Every sign that went along was given, and no other. -/
  given : t.writer.given = WriteOp.tickets (ps.flatMap (·.ops))

variable {s : Store} {ps : List Pass} {held : List WriteOp} {t t' : Trace}

theorem HasPassed.offered (h : t.HasPassed s ps held) (change : t.Offered t') :
    t'.HasPassed s ps held := by
  obtain ⟨ops, taken, queue, -⟩ := change.more
  refine ⟨?_, change.stage ▸ h.batch, change.calls ▸ h.calls, ?_, change.given ▸ h.given⟩
  · rw [taken, h.taken, queue, List.append_assoc]
  · rw [change.calls, change.store]
    exact h.lead

theorem move_step_of_idle (t : Trace) {faults : BatchFaults}
    (idle : t.writer.stage.atStore? = none) :
    t.move (.step faults) = { t with writer := t.writer.step faults } := by
  rw [move, idle]
  show { t with writer := _, calls := t.calls ++ [] } = _
  rw [List.append_nil]

theorem move_step_of_atStore (t : Trace) {faults : BatchFaults} {b : Batch}
    (atStore : t.writer.stage.atStore? = some b) :
    t.move (.step faults) =
      { t with
        writer := t.writer.step faults
        calls := t.calls ++ [⟨b, faults, t.writer.store⟩] } := by
  rw [move, atStore]
  rfl

/-- A step takes what is next into the hand, or hands over to the store what is there. -/
theorem HasPassed.step (h : t.HasPassed s ps held) (faults : BatchFaults) :
    ∃ ps held, (t.move (.step faults)).HasPassed s ps held := by
  generalize becomes : t.writer.step faults = w
  have stride : t.writer.Stride faults w := becomes ▸ t.writer.stride_step faults
  cases stride with
  | rests idle =>
    rw [t.move_step_of_idle idle, becomes]
    exact ⟨ps, held, h⟩
  | closes waits =>
    have idle : t.writer.stage.atStore? = none := by rw [waits]; rfl
    rw [t.move_step_of_idle idle, becomes]
    refine ⟨ps, held, h.taken, ?_, h.calls, h.lead, h.given⟩
    have empty : t.writer.stage.batch = {} := by rw [waits]; rfl
    exact empty.symm.trans h.batch
  | @takes op rest stage next idle batch last open_ =>
    rw [t.move_step_of_idle idle, becomes]
    refine ⟨ps, held ++ [op], ?_, ?_, h.calls, h.lead, h.given⟩
    · show t.taken = ps.flatMap (·.ops) ++ (held ++ [op]) ++ rest
      rw [h.taken, next]
      simp only [List.append_assoc, List.singleton_append]
    · exact batch.trans (by rw [h.batch, Batch.push_ofOps])
  | sends idle batch last through =>
    rw [t.move_step_of_idle idle, becomes]
    exact ⟨ps, held, h.taken, batch.trans h.batch, h.calls, h.lead, h.given⟩
  | @gives b stage atStore empty last through =>
    rw [t.move_step_of_atStore atStore, becomes]
    have made : b = .ofOps held := (WriterStage.batch_of_atStore? atStore).symm.trans h.batch
    let p : Pass := ⟨⟨b, faults, t.writer.store⟩, held, made⟩
    have passed : (ps ++ [p]).flatMap (·.ops) = ps.flatMap (·.ops) ++ held := by
      rw [List.flatMap_append, List.flatMap_singleton]
    refine ⟨ps ++ [p], [], ?_, empty, ?_, h.lead.concat, ?_⟩
    · show t.taken = (ps ++ [p]).flatMap (·.ops) ++ [] ++ t.writer.sink.queue
      rw [passed, List.append_nil]
      exact h.taken
    · show t.calls ++ [p.toStoreCall] = (ps ++ [p]).map (·.toStoreCall)
      rw [List.map_append, h.calls, List.map_singleton]
    · show t.writer.given ++ b.signs = WriteOp.tickets ((ps ++ [p]).flatMap (·.ops))
      rw [passed, WriteOp.tickets_append, h.given, made]
      rfl

/-- **What was taken is in the passes, in hand, or in the queue, at every moment of every run.** -/
theorem exists_hasPassed (capacity batchSize : Nat) (s : Store) (ms : List WriterMove) :
    ∃ ps held, ((start capacity batchSize s).moves ms).HasPassed s ps held := by
  refine moves_keeps (P := fun t ↦ ∃ ps held, t.HasPassed s ps held) ?_ ?_ ?_ ms
  · rintro t t' ⟨ps, held, h⟩ change
    exact ⟨ps, held, h.offered change⟩
  · rintro t faults ⟨ps, held, h⟩
    exact h.step faults
  · exact ⟨[], [], rfl, rfl, rfl, rfl, rfl⟩

/-! ### The end -/

/-- The queue is closed before it is looked at for the last time; what was refused was counted. -/
structure IsOrderly (t : Trace) : Prop where
  enabled : t.writer.sink.enabled = true
  closed : t.writer.stage.isLast = true → t.writer.sink.closed = true
  through : t.writer.stage.isThrough = true → t.writer.sink.queue = []
  counted : t.refused = t.writer.sink.dropped

theorem IsOrderly.offered (h : t.IsOrderly) (change : t.Offered t') : t'.IsOrderly := by
  obtain ⟨ops, -, queue, nothing⟩ := change.more
  refine ⟨change.enabled.trans h.enabled, ?_, ?_, ?_⟩
  · rw [change.stage, change.closed]
    exact h.closed
  · rw [change.stage, queue]
    intro through
    have closed := h.closed (WriterStage.isLast_of_isThrough through)
    rw [h.through through, nothing closed, List.append_nil]
  · have := change.counted h.enabled
    have := h.counted
    omega

theorem IsOrderly.step (h : t.IsOrderly) (faults : BatchFaults) :
    (t.move (.step faults)).IsOrderly := by
  generalize becomes : t.writer.step faults = w
  have stride : t.writer.Stride faults w := becomes ▸ t.writer.stride_step faults
  suffices w.sink.enabled = true ∧ (w.stage.isLast = true → w.sink.closed = true) ∧
      (w.stage.isThrough = true → w.sink.queue = []) ∧ t.refused = w.sink.dropped by
    rw [← becomes] at this
    exact ⟨this.1, this.2.1, this.2.2.1, this.2.2.2⟩
  cases stride with
  | rests idle => exact ⟨h.enabled, h.closed, h.through, h.counted⟩
  | closes waits => exact ⟨h.enabled, fun _ ↦ rfl, nofun, h.counted⟩
  | takes next idle batch last open_ =>
    refine ⟨h.enabled, fun closing ↦ h.closed (last ▸ closing), fun through ↦ ?_, h.counted⟩
    exact absurd (open_.symm.trans through) Bool.false_ne_true
  | sends idle batch last through =>
    exact ⟨h.enabled, fun closing ↦ h.closed (last ▸ closing), through, h.counted⟩
  | gives atStore empty last through =>
    exact ⟨h.enabled, fun closing ↦ h.closed (last ▸ closing), fun ends ↦ h.through (through ends),
      h.counted⟩

theorem isOrderly_moves (capacity batchSize : Nat) (s : Store) (ms : List WriterMove) :
    ((start capacity batchSize s).moves ms).IsOrderly :=
  moves_keeps (fun _ _ h ↦ h.offered) (fun _ faults h ↦ h.step faults) ⟨rfl, nofun, nofun, rfl⟩ ms

/-- A writer that is done has written everything that was taken. -/
theorem HasPassed.of_isOver (h : t.HasPassed s ps held) (orderly : t.IsOrderly)
    (gone : t.writer.isOver = true) : t.taken = ps.flatMap (·.ops) := by
  have ended : t.writer.stage = .ended := of_decide_eq_true gone
  have nothing_held : held = [] := Batch.eq_nil_of_ofOps (h.batch.symm.trans (by rw [ended]; rfl))
  rw [h.taken, nothing_held, orderly.through (by rw [ended]; rfl), List.append_nil, List.append_nil]

end Trace

end Supervision
