import Supervision.Proofs.Recording.OneByOne
import Supervision.Proofs.Recording.Passes
import Supervision.Store.History

/-!
# The writer is as good as one that writes at once

As long as the store does not fail, the batches of the writer cannot be told from writes one after
the other in the order in which they were taken (`Trace.writes_in_order`): not by what is stored in
the end, down to the numbers of the rows, and not by a sign, which is given only when everything
that was taken before it has been applied. This holds for every way in which the offers and signs of
others, the word to stop, and the steps of the writer fall between one another.

It is put together from what a batch does to the store (`Pass.eq_applyAll_of_lead`) and from where
everything is that was taken (`Trace.exists_hasPassed`).
-/

namespace Supervision

namespace Trace

/-- The sign that was taken after `before` has been given. Signs are given in the order in which
they were taken, so that takes as many given signs as `before` has, and one more. -/
def HasGiven (before : List WriteOp) (t : Trace) : Prop :=
  (WriteOp.tickets before).length < t.writer.given.length

variable {s : Store} {ps : List Pass} {held : List WriteOp} {t : Trace}

/-- The passes are made of what was taken first. -/
theorem HasPassed.isPrefix (h : t.HasPassed s ps held) : ps.flatMap (·.ops) <+: t.taken := by
  rw [h.taken, List.append_assoc]
  exact List.prefix_append _ _

theorem HasPassed.given_isPrefix (h : t.HasPassed s ps held) :
    t.writer.given <+: WriteOp.tickets t.taken := by
  rw [h.given]
  exact h.isPrefix.filterMap _

/-- A sign that has been given was in a pass, after everything that was taken before it. -/
theorem HasPassed.before_isPrefix (h : t.HasPassed s ps held) {before later : List WriteOp}
    {ticket : Nat} (taken : t.taken = before ++ .sign ticket :: later)
    (given : t.HasGiven before) : before ++ [.sign ticket] <+: ps.flatMap (·.ops) := by
  have here : before ++ [.sign ticket] <+: t.taken := by
    rw [taken]
    exact ⟨later, (List.append_cons before _ later).symm⟩
  rcases Nat.lt_or_ge before.length (ps.flatMap (·.ops)).length with long | short
  · refine List.prefix_of_prefix_length_le here h.isPrefix ?_
    rw [List.length_append, List.length_singleton]
    omega
  · -- The passes end before the sign, and with them the signs that were given.
    have ends : ps.flatMap (·.ops) <+: before :=
      List.prefix_of_prefix_length_le h.isPrefix ((List.prefix_append _ _).trans here) short
    have few : (WriteOp.tickets (ps.flatMap (·.ops))).length ≤ (WriteOp.tickets before).length :=
      (ends.filterMap _).length_le
    rw [HasGiven, h.given] at given
    omega

/-- **The writer writes in order.** As long as the store does not fail: a writer that is done has
left the store as the writes that were taken would have, one after the other; what was refused was
counted; and a sign that was taken after `before` is given only when the writes of `before` have
been applied, in this order. -/
theorem writes_in_order (capacity batchSize : Nat) (s : Store) (ms : List WriterMove)
    (ok : ∀ c ∈ ((start capacity batchSize s).moves ms).calls, c.isOk = true) :
    let t := (start capacity batchSize s).moves ms
    (t.writer.isOver = true → t.writer.store = WriteOp.applyAll t.taken s) ∧
    t.refused = t.writer.sink.dropped ∧
    t.writer.given <+: WriteOp.tickets t.taken ∧
    ∀ before ticket later, t.taken = before ++ .sign ticket :: later → t.HasGiven before →
      ∃ through, before ++ [.sign ticket] <+: through ∧ through <+: t.taken ∧
        t.writer.store = WriteOp.applyAll through s := by
  intro t
  obtain ⟨ps, held, h⟩ := exists_hasPassed capacity batchSize s ms
  have orderly : t.IsOrderly := isOrderly_moves capacity batchSize s ms
  have written : t.writer.store = WriteOp.applyAll (ps.flatMap (·.ops)) s := by
    refine Pass.eq_applyAll_of_lead (h.calls ▸ h.lead) fun p mem ↦ ok p.toStoreCall ?_
    rw [h.calls]
    exact List.mem_map_of_mem mem
  refine ⟨fun gone ↦ ?_, orderly.counted, h.given_isPrefix, fun before ticket later taken given ↦ ?_⟩
  · rw [h.of_isOver orderly gone]
    exact written
  · exact ⟨_, h.before_isPrefix taken given, h.isPrefix, written⟩

/-! ### A run -/

/-- A store with a job and a session. -/
def deskStore : Store :=
  Store.after
    [.upsertJob ⟨⟨"desk", 0, "tidy", ""⟩, ⟨"tidy", "every", none, true, none⟩⟩ ⟨0⟩, .begin ⟨0⟩] {}

/-- A run of the job, in a session. -/
def deskRecord (session : Int) : Write :=
  .record ⟨⟨.job, 1⟩, session, ⟨0⟩, ⟨0⟩, .success, none, none, none⟩

/-- The first error of the session. -/
def deskError : Write := .sessionError 1 ⟨"late", "too late", none⟩

/-- Two writes, and a third that is refused; the first free place is kept for a sign, so a fourth is
refused as well; then the sign, a write for a session that is unknown, and the word to stop. -/
def deskMoves : List WriterMove :=
  [.offer (deskRecord 1), .offer deskError, .offer (deskRecord 1), .step {}, .keep,
    .offer (deskRecord 1), .step {}, .signKept 7, .offer (deskRecord 2), .step {}, .step {}, .stop,
    .step {}, .step {}, .step {}, .step {}, .step {}]

theorem desk_writes_in_order :
    let t := (start 2 2 deskStore).moves deskMoves
    t.taken = [.write (deskRecord 1), .write deskError, .sign 7, .write (deskRecord 2)] ∧
    t.writer.store = WriteOp.applyAll t.taken deskStore ∧
    t.writer.sink.dropped = 2 ∧ t.writer.given = [7] ∧
    ∃ through, [.write (deskRecord 1), .write deskError, .sign 7] <+: through ∧
      t.writer.store = WriteOp.applyAll through deskStore := by
  have taken : ((start 2 2 deskStore).moves deskMoves).taken =
      [.write (deskRecord 1), .write deskError] ++ .sign 7 :: [.write (deskRecord 2)] := by
    decide
  have given : ((start 2 2 deskStore).moves deskMoves).writer.given = [7] := by decide
  obtain ⟨ends, counted, -, signs⟩ := writes_in_order 2 2 deskStore deskMoves (by decide)
  obtain ⟨through, before, -, store⟩ := signs _ 7 _ taken (by rw [HasGiven, given]; decide)
  exact ⟨taken, ends (by decide), counted.symm.trans (by decide), given, through, before, store⟩

end Trace

end Supervision
