import Supervision.Proofs.Recording.OneByOne
import Supervision.Proofs.Recording.Passes
import Supervision.Proofs.Store.Batches
import Supervision.Recording.Recorder

/-!
# The session of a recorder

Two write into the session of a recorder: the crashes it is told of go through the queue and the
writer, and its end goes straight to the store, once the writer is over. A crash on its way is in
the queue, in a batch, or in the store, in the order in which it was noted; of those that were noted
only what found no room is missing (`Writer.IsTold`). So when the session is closed, nothing of it
is on its way any more, and the first crash it was told of is the error it keeps.

Others use the same queue and the same store (`Recorder.Use`), but write nothing into the session.

* `Writer.IsOpen.step` — a step of the writer loses nothing on the way, on a store that does not
  fail.
* `Writer.IsOpen.close` — what a session is closed with.
* `Recorder.Move.isOpen`, `Recorder.Move.isClosed` — what any move of a recorder makes of its
  session before and after that.
-/

namespace Supervision

/-! ### A session in the store -/

namespace Store

/-- The operation says nothing of how a session goes. -/
def Operation.isCalm : Operation → Bool
  | .upsertListener .. | .upsertJob .. | .insert .. | .sweep .. | .heartbeat .. => true
  | .begin .. | .finish .. | .noteError .. | .finalizeOrphans => false

/-- The session is running, and its error is the first of these failures. -/
structure SessionRow.IsOpen (fs : List Failure) (row : SessionRow) : Prop where
  running : row.isRunning = true
  error : row.HasError fs.head?

/-- The session was closed with this status, and with this failure if it had no error. -/
structure SessionRow.IsClosed (status : SessionStatus) (f? : Option Failure) (row : SessionRow) :
    Prop where
  status : row.status = status.name
  running : row.isRunning = false
  error : row.HasError f?

/-- The sessions are there, and the one with this number is of a kind. -/
def HasSession (id : Int) (P : SessionRow → Prop) (s : Store) : Prop :=
  s.sessionsLost = false ∧ ∃ row, s.sessions.find? (·.id == id) = some row ∧ P row

variable {s : Store} {id : Int} {op : Operation} {fs : List Failure} {row : SessionRow}

theorem HasSession.apply {P Q : SessionRow → Prop} (h : s.HasSession id P) (op : Operation)
    (closed : op.opened? s = none) (step : ∀ row, row.id = id → P row → Q (row.undergo op)) :
    (op.apply s).HasSession id Q := by
  obtain ⟨here, row, found, holds⟩ := h
  have own : row.id = id := by simpa using List.find?_some found
  have same : ((·.id == id) ∘ (·.undergo op) : SessionRow → Bool) = (·.id == id) := by
    funext r
    rw [Function.comp_apply, (r.leads_undergo op).id]
  refine ⟨sessionsLost_apply here op, row.undergo op, ?_, step row own holds⟩
  rw [sessions_apply here, closed, Option.toList_none, List.append_nil, List.find?_map, same, found,
    Option.map_some]

theorem SessionRow.failure?_of_isCalm (calm : op.isCalm = true) (row : SessionRow) :
    row.failure? op = none := by
  cases op with
  | upsertListener | upsertJob | insert | sweep | heartbeat => rfl
  | begin | finish | noteError | finalizeOrphans => cases calm

theorem SessionRow.HasError.undergo_of_isCalm {f? : Option Failure} (h : row.HasError f?)
    (calm : op.isCalm = true) : (row.undergo op).HasError f? := by
  have told := h.undergo op
  rwa [row.failure?_of_isCalm calm, Option.or_none] at told

theorem SessionRow.IsOpen.calm (h : row.IsOpen fs) (calm : op.isCalm = true) :
    (row.undergo op).IsOpen fs where
  running := by
    cases op with
    | upsertListener | upsertJob | insert | sweep => exact h.running
    | heartbeat =>
      rw [SessionRow.undergo]
      split <;> exact h.running
    | begin | finish | noteError | finalizeOrphans => cases calm
  error := h.error.undergo_of_isCalm calm

theorem SessionRow.IsClosed.calm {status : SessionStatus} {f? : Option Failure}
    (h : row.IsClosed status f?) (calm : op.isCalm = true) :
    (row.undergo op).IsClosed status f? where
  status := (((row.leads_undergo op).closed h.running).1).trans h.status
  running := (row.leads_undergo op).isRunning h.running
  error := h.error.undergo_of_isCalm calm

theorem Operation.opened?_of_isCalm (calm : op.isCalm = true) : op.opened? s = none := by
  cases op with
  | begin => cases calm
  | _ => rfl

/-- The first failure noted for a session stays. -/
theorem SessionRow.IsOpen.noteError (h : row.IsOpen fs) (f : Failure) :
    (row.undergo (.noteError row.id f)).IsOpen (fs ++ [f]) where
  running := by
    rw [SessionRow.undergo]
    split <;> exact h.running
  error := by
    have told := h.error.undergo (.noteError row.id f)
    rwa [SessionRow.failure?, beq_self_eq_true, if_pos rfl, ← List.head?_singleton,
      ← List.head?_append] at told

/-- A session is closed as it ended; if it has an error, it keeps that. -/
theorem SessionRow.IsOpen.finish (h : row.IsOpen fs) {status : SessionStatus}
    (closes : status ≠ .running) (f? : Option Failure) (now : Stamp) :
    (row.undergo (.finish row.id status f? now)).IsClosed status (fs.head?.or f?) := by
  have own : (row.id == row.id && row.isRunning) = true := by
    rw [beq_self_eq_true, h.running]
    rfl
  have told := h.error.undergo (.finish row.id status f? now)
  rw [SessionRow.failure?, if_pos own] at told
  have named : (row.undergo (.finish row.id status f? now)).status = status.name := by
    rw [SessionRow.undergo, if_pos own]
  exact ⟨named, SessionRow.not_isRunning_of_status status named closes, told⟩

end Store

/-! ### Session errors on their way -/

/-- The session errors that are not written yet, in order. -/
def Writer.unwritten (w : Writer) : List (Int × Failure) :=
  w.stage.batch.sessionErrors ++ w.sink.queue.filterMap WriteOp.sessionError?

namespace Batch

theorem sessionErrors_push (op : WriteOp) (b : Batch) :
    (b.push op).sessionErrors = b.sessionErrors ++ op.sessionError?.toList := by
  match op with
  | .write (.record r) => exact (List.append_nil _).symm
  | .write (.sessionError id f) => rfl
  | .sign ticket => exact (List.append_nil _).symm

theorem filterMap_writes (b : Batch) :
    b.writes.filterMap WriteOp.sessionError? = b.sessionErrors := by
  rw [writes, List.filterMap_append, List.filterMap_map, List.filterMap_map]
  have none (rs : List Record) :
      rs.filterMap (WriteOp.sessionError? ∘ fun r ↦ .write (.record r)) = [] :=
    List.filterMap_eq_nil_iff.mpr fun _ _ ↦ rfl
  rw [none]
  exact List.filterMap_some

end Batch

namespace Store

variable {s : Store} {id : Int} {fs : List Failure}

/-- What is written keeps a session running, and adds its errors. -/
theorem HasSession.applyAll (h : s.HasSession id (·.IsOpen fs)) {ops : List WriteOp}
    {errors : List Failure}
    (own : ops.filterMap WriteOp.sessionError? = errors.map (id, ·)) :
    (WriteOp.applyAll ops s).HasSession id (·.IsOpen (fs ++ errors)) := by
  induction ops generalizing s fs errors with
  | nil =>
    rw [List.map_eq_nil_iff.mp own.symm, List.append_nil]
    exact h
  | cons op ops ih =>
    match op with
    | .sign ticket => exact ih h own
    | .write (.record r) =>
      have calm : (Operation.insert {} [r]).isCalm = true := rfl
      exact ih (h.apply _ rfl fun row _ running ↦ running.calm calm) own
    | .write (.sessionError id' f) =>
      obtain ⟨f', errors', rfl, same, rest⟩ := List.map_eq_cons_iff.mp own.symm
      obtain ⟨rfl, rfl⟩ := Prod.mk.inj same
      rw [List.append_cons]
      refine ih (h.apply (.noteError id f') rfl fun row number running ↦ ?_) rest.symm
      exact number ▸ running.noteError f'

/-! ### Batches that are written without faults -/

theorem exists_recordSessionError_ok (lost : s.sessionsLost = false) (id : Int) (f : Failure) :
    ∃ b s', s.recordSessionError id f = (.ok b, s') := by
  rw [recordSessionError, anyChanged, updateSessions, withSessions,
    if_neg (Bool.eq_false_iff.mp lost)]
  exact ⟨_, _, rfl⟩

theorem exists_noteErrors_ok (lost : s.sessionsLost = false) (i : Nat)
    (errors : List (Int × Failure)) :
    ∃ s', Batch.noteErrors (fun _ ↦ none) i s errors = (.ok (), s') := by
  induction errors generalizing s i with
  | nil => exact ⟨s, rfl⟩
  | cons e errors ih =>
    obtain ⟨b, s', noted⟩ := exists_recordSessionError_ok lost e.1 e.2
    have still : s'.sessionsLost = false := by
      have kept := sessionsLost_apply lost (.noteError e.1 e.2)
      rwa [Operation.apply, noted] at kept
    rw [Batch.noteErrors]
    dsimp only
    rw [noted]
    exact ih still (i + 1)

end Store

/-- A store that does not fail takes a batch. -/
theorem Batch.writeWith_eq {s : Store} (lost : s.sessionsLost = false) (b : Batch) :
    (b.writeWith {} s).2 = WriteOp.applyAll b.writes s := by
  obtain ⟨k, s', written⟩ : ∃ k s', b.writeWith {} s = (.ok k, s') := by
    rw [writeWith]
    split
    · exact ⟨0, s, rfl⟩
    · have unmet := (Store.Faults.met_eq_none_iff {} 0 b.records.length).mpr ⟨fun _ _ _ ↦ rfl, rfl⟩
      obtain ⟨s', added, gains⟩ := Store.insertRecordsWith_of_unmet lost unmet
      have still : s'.sessionsLost = false := gains.sessions.lost.trans lost
      obtain ⟨s'', noted⟩ := Store.exists_noteErrors_ok still 0 b.sessionErrors
      rw [added]
      dsimp only
      rw [noted]
      exact ⟨_, s'', rfl⟩
  rw [written, writeWith_ok written]

/-! ### At the queue -/

namespace Sink

variable {s s' : Sink}

/-- More has come into the queue, unless it is closed. -/
structure Grew (s : Sink) (ops : List WriteOp) (s' : Sink) : Prop where
  queue : s'.queue = s.queue ++ ops
  enabled : s'.enabled = s.enabled
  closed : s'.closed = s.closed
  dropped : s.dropped ≤ s'.dropped
  shut : s.closed = true → ops = []

theorem Grew.refl (s : Sink) : s.Grew [] s :=
  ⟨(List.append_nil _).symm, rfl, rfl, Nat.le_refl _, fun _ ↦ rfl⟩

/-- An offer is taken, or it is counted as lost. -/
theorem grew_offer (enabled : s.enabled = true) (w : Write) :
    s.Grew [.write w] (s.offer w).2.2 ∨
      s.Grew [] (s.offer w).2.2 ∧ 0 < (s.offer w).2.2.dropped := by
  by_cases taken : (s.offer w).1 = true
  · rw [offer_accepted taken]
    refine .inl ⟨rfl, rfl, rfl, Nat.le_refl _, fun shut ↦ ?_⟩
    exact absurd ((open_of_accepted taken).symm.trans shut) Bool.false_ne_true
  · rw [offer_refused enabled (Bool.eq_false_iff.mpr taken)]
    exact .inr ⟨⟨(List.append_nil _).symm, rfl, rfl, Nat.le_succ _, fun _ ↦ rfl⟩, Nat.succ_pos _⟩

/-- What others do at the queue: they offer records, and wait for signs. -/
inductive Use (s : Sink) : Sink → Prop
  | record (r : Record) : Use s (s.offer (.record r)).2.2
  | sign (ticket : Nat) : Use s (s.putSign ticket)
  | keep : Use s s.keep
  | signKept (ticket : Nat) : Use s (s.putKept ticket)
  | giveBack : Use s s.giveBack

/-- None of that is about sessions. -/
theorem Use.grew (h : s.Use s') (enabled : s.enabled = true) :
    ∃ ops, s.Grew ops s' ∧ ops.filterMap WriteOp.sessionError? = [] := by
  cases h with
  | record r =>
    rcases grew_offer enabled (.record r) with taken | ⟨lost, -⟩
    · exact ⟨_, taken, rfl⟩
    · exact ⟨_, lost, rfl⟩
  | sign ticket =>
    rw [putSign]
    split
    · rename_i takes
      refine ⟨[.sign ticket], ⟨rfl, rfl, rfl, Nat.le_refl _, fun shut ↦ ?_⟩, rfl⟩
      exact absurd ((open_of_takesSign takes).symm.trans shut) Bool.false_ne_true
    · exact ⟨[], .refl s, rfl⟩
  | keep =>
    rw [Sink.keep]
    split
    · exact ⟨[], ⟨(List.append_nil _).symm, rfl, rfl, Nat.le_refl _, fun _ ↦ rfl⟩, rfl⟩
    · exact ⟨[], .refl s, rfl⟩
  | signKept ticket =>
    rw [putKept]
    split
    · rename_i takes
      refine ⟨[.sign ticket], ⟨rfl, rfl, rfl, Nat.le_refl _, fun shut ↦ ?_⟩, rfl⟩
      exact absurd ((open_of_takesKept takes).symm.trans shut) Bool.false_ne_true
    · exact ⟨[], .refl s, rfl⟩
  | giveBack => exact ⟨[], ⟨(List.append_nil _).symm, rfl, rfl, Nat.le_refl _, fun _ ↦ rfl⟩, rfl⟩

end Sink

/-! ### The writer of a session -/

namespace Writer

variable {w : Writer} {id : Int} {noted told : List Failure} {ending : SessionEnd}

/-- Of the failures noted for the session these came into the queue: all of them, unless something
was lost. -/
structure IsTold (noted told : List Failure) (w : Writer) : Prop where
  enabled : w.sink.enabled = true
  part : told.Sublist noted
  all : w.sink.dropped = 0 → told = noted

/-- The session is running. What it was told of is written, in hand, or still waits, in this
order. -/
structure IsOpen (id : Int) (noted told : List Failure) (w : Writer) : Prop
    extends w.IsTold noted told where
  last : w.stage.isLast = true → w.sink.closed = true
  through : w.stage.isThrough = true → w.sink.queue = []
  session : ∃ written waiting, told = written ++ waiting ∧
    w.unwritten = waiting.map (id, ·) ∧ w.store.HasSession id (·.IsOpen written)

/-- The writer is over, and the session was closed. -/
structure IsClosed (id : Int) (noted told : List Failure) (ending : SessionEnd) (w : Writer) : Prop
    extends w.IsTold noted told where
  ended : w.stage = .ended
  shut : w.sink.closed = true
  session : w.store.HasSession id (·.IsClosed ending.status (told.head?.or ending.failure?))

theorem IsTold.grew (h : w.IsTold noted told) {ops : List WriteOp} {sink : Sink}
    (grew : w.sink.Grew ops sink) : { w with sink := sink }.IsTold noted told where
  enabled := grew.enabled.trans h.enabled
  part := h.part
  all none := h.all (Nat.eq_zero_of_le_zero (none ▸ grew.dropped))

/-- More of the session's failures came into the queue, maybe. -/
theorem IsOpen.grew (h : w.IsOpen id noted told) (new : List Failure) {noted' : List Failure}
    {ops : List WriteOp} {sink : Sink} (grew : w.sink.Grew ops sink)
    (errors : ops.filterMap WriteOp.sessionError? = new.map (id, ·))
    (tells : { w with sink := sink }.IsTold noted' (told ++ new)) :
    { w with sink := sink }.IsOpen id noted' (told ++ new) := by
  obtain ⟨written, waiting, parts, unwritten, stored⟩ := h.session
  refine ⟨tells, fun last ↦ grew.closed.trans (h.last last), fun through ↦ ?_,
    written, waiting ++ new, ?_, ?_, stored⟩
  · -- A closed queue has taken in nothing.
    have nothing := grew.shut (h.last (WriterStage.isLast_of_isThrough through))
    show sink.queue = []
    rw [grew.queue, h.through through, nothing, List.append_nil]
  · rw [parts, List.append_assoc]
  · rw [Writer.unwritten] at unwritten ⊢
    dsimp only
    rw [grew.queue, List.filterMap_append, errors, ← List.append_assoc, unwritten, List.map_append]

theorem IsOpen.use (h : w.IsOpen id noted told) {sink : Sink} (use : w.sink.Use sink) :
    { w with sink := sink }.IsOpen id noted told := by
  obtain ⟨ops, grew, none⟩ := use.grew h.enabled
  have tells := h.toIsTold.grew grew
  have keeps := h.grew [] grew none (by rwa [List.append_nil])
  rwa [List.append_nil] at keeps

theorem IsClosed.use (h : w.IsClosed id noted told ending) {sink : Sink} (use : w.sink.Use sink) :
    { w with sink := sink }.IsClosed id noted told ending := by
  obtain ⟨ops, grew, -⟩ := use.grew h.enabled
  exact ⟨h.toIsTold.grew grew, h.ended, grew.closed.trans h.shut, h.session⟩

theorem IsOpen.calm (h : w.IsOpen id noted told) {op : Store.Operation} (calm : op.isCalm = true) :
    { w with store := op.apply w.store }.IsOpen id noted told := by
  obtain ⟨written, waiting, parts, unwritten, stored⟩ := h.session
  exact ⟨⟨h.enabled, h.part, h.all⟩, h.last, h.through, written, waiting, parts, unwritten,
    stored.apply op (op.opened?_of_isCalm calm) fun _ _ running ↦ running.calm calm⟩

theorem IsClosed.calm (h : w.IsClosed id noted told ending) {op : Store.Operation}
    (calm : op.isCalm = true) :
    { w with store := op.apply w.store }.IsClosed id noted told ending :=
  ⟨⟨h.enabled, h.part, h.all⟩, h.ended, h.shut,
    h.session.apply op (op.opened?_of_isCalm calm) fun _ _ closed ↦ closed.calm calm⟩

/-- The session is told of a failure, unless that is lost. -/
theorem IsOpen.note (h : w.IsOpen id noted told) (f : Failure) :
    ∃ told', { w with sink := (w.sink.offer (.sessionError id f)).2.2 }.IsOpen id (noted ++ [f])
      told' := by
  rcases Sink.grew_offer h.enabled (.sessionError id f) with grew | ⟨grew, lost⟩
  · refine ⟨told ++ [f], h.grew [f] grew rfl ?_⟩
    have kept := h.toIsTold.grew grew
    exact ⟨kept.enabled, h.part.append (.refl _), fun none ↦ by rw [kept.all none]⟩
  · refine ⟨told ++ [], h.grew [] grew rfl ?_⟩
    have kept := h.toIsTold.grew grew
    refine ⟨kept.enabled, ?_, fun none ↦ absurd none (Nat.ne_of_gt lost)⟩
    rw [List.append_nil]
    exact h.part.trans (List.sublist_append_left _ _)

theorem IsClosed.note (h : w.IsClosed id noted told ending) (f : Failure) :
    { w with sink := (w.sink.offer (.sessionError id f)).2.2 }.IsClosed id (noted ++ [f]) told
      ending := by
  rcases Sink.grew_offer h.enabled (.sessionError id f) with grew | ⟨grew, lost⟩
  · exact absurd (grew.shut h.shut) (List.cons_ne_nil _ _)
  · have kept := h.toIsTold.grew grew
    exact ⟨⟨kept.enabled, h.part.trans (List.sublist_append_left _ _),
      fun none ↦ absurd none (Nat.ne_of_gt lost)⟩, h.ended, grew.closed.trans h.shut, h.session⟩

/-- **A step of the writer brings what it was told of closer to the store.** -/
theorem IsOpen.step (h : w.IsOpen id noted told) : (w.step {}).IsOpen id noted told := by
  obtain ⟨written, waiting, parts, unwritten, stored⟩ := h.session
  have stride := stride_step {} w
  generalize w.step {} = w' at stride
  cases stride with
  | rests => exact h
  | closes waits =>
    refine ⟨⟨h.enabled, h.part, h.all⟩, fun _ ↦ rfl, nofun, written, waiting, parts, ?_, stored⟩
    rw [Writer.unwritten, waits] at unwritten
    exact unwritten
  | @takes op rest stage next idle batch last open_ =>
    refine ⟨⟨h.enabled, h.part, h.all⟩, fun closed ↦ h.last (last ▸ closed), fun through ↦ ?_,
      written, waiting, parts, ?_, stored⟩
    · exact absurd (open_.symm.trans through) Bool.false_ne_true
    · have split : (op :: rest).filterMap WriteOp.sessionError? =
          op.sessionError?.toList ++ rest.filterMap WriteOp.sessionError? := by
        rw [List.filterMap_cons]
        cases op.sessionError? <;> rfl
      rw [Writer.unwritten, next, split, ← List.append_assoc] at unwritten
      rw [Writer.unwritten]
      dsimp only
      rw [batch, Batch.sessionErrors_push, unwritten]
  | sends idle batch last through =>
    refine ⟨⟨h.enabled, h.part, h.all⟩, fun closed ↦ h.last (last ▸ closed), through, written,
      waiting, parts, ?_, stored⟩
    rw [Writer.unwritten] at unwritten ⊢
    dsimp only
    rw [batch, unwritten]
  | @gives b stage atStore empty last through =>
    rw [Writer.unwritten, WriterStage.batch_of_atStore? atStore] at unwritten
    obtain ⟨now_, later, rfl, inHand, queued⟩ := List.map_eq_append_iff.mp unwritten.symm
    refine ⟨⟨h.enabled, h.part, h.all⟩, fun closed ↦ h.last (last ▸ closed),
      fun gone ↦ h.through (through gone), written ++ now_, later, ?_, ?_, ?_⟩
    · rw [parts, List.append_assoc]
    · rw [Writer.unwritten]
      dsimp only [Writer.write]
      rw [empty, queued]
      rfl
    · show (b.writeWith {} w.store).2.HasSession id _
      rw [Batch.writeWith_eq stored.1]
      exact stored.applyAll (by rw [Batch.filterMap_writes, inHand])

theorem IsClosed.step (h : w.IsClosed id noted told ending) :
    (w.step {}).IsClosed id noted told ending := by
  have rests : w.step {} = w := by rw [Writer.step, h.ended]
  rwa [rests]

/-- When the writer is over, the session can be closed, and has then the first error it was told
of. -/
theorem IsOpen.close (h : w.IsOpen id noted told) (over_ : w.stage = .ended) (ending : SessionEnd)
    (clock : Stamp) :
    { w with
      store := (Store.Operation.finish id ending.status ending.failure? clock).apply w.store
    }.IsClosed id noted told ending := by
  have through : w.stage.isThrough = true := by rw [over_]; rfl
  obtain ⟨written, waiting, parts, unwritten, stored⟩ := h.session
  rw [Writer.unwritten, h.through through, over_] at unwritten
  rw [List.map_eq_nil_iff.mp unwritten.symm, List.append_nil] at parts
  refine ⟨⟨h.enabled, h.part, h.all⟩, over_, h.last (WriterStage.isLast_of_isThrough through), ?_⟩
  refine stored.apply _ rfl fun row number running ↦ ?_
  have closes : ending.status ≠ .running := by cases ending <;> exact nofun
  rw [parts, ← number]
  exact running.finish closes ending.failure? clock

end Writer

/-! ### The recorder -/

namespace Recorder

variable {r r' : Recorder} {news noted told : List Failure} {ending : SessionEnd}

/-- What others do with a recorder: they use its queue, and do to its store what says nothing of how
a session goes. -/
inductive Use (r : Recorder) : Recorder → Prop
  | queue {sink : Sink} (h : r.writer.sink.Use sink) :
    Use r { r with writer := { r.writer with sink := sink } }
  | store (op : Store.Operation) (calm : op.isCalm = true) : Use r (r.setStore (op.apply r.store))

/-- What happens to a recorder between its beginning and its end, while the tracker notes the
failures `news`. -/
inductive Move (r : Recorder) : List Failure → Recorder → Prop
  | rests : Move r [] r
  | uses {r' : Recorder} (h : r.Use r') : Move r [] r'
  | tracks (e : Event) : Move r (crash? e).toList (r.track e)
  | writes : Move r [] { r with writer := r.writer.step {} }
  | tends (clock : Stamp) (limit fuel : Nat) : Move r [] (r.runDue clock limit fuel)

theorem track_frame (e : Event) (r : Recorder) :
    (r.track e).session = r.session ∧ (r.track e).finished = r.finished := by
  rw [track]
  split <;> exact ⟨rfl, rfl⟩

theorem runDue_frame (clock : Stamp) (limit fuel : Nat) (r : Recorder) :
    (r.runDue clock limit fuel).session = r.session ∧
      (r.runDue clock limit fuel).finished = r.finished := by
  induction fuel generalizing r with
  | zero => exact ⟨rfl, rfl⟩
  | succ fuel ih =>
    rw [runDue]
    split
    · exact ih _
    · split
      · exact ih _
      · exact ⟨rfl, rfl⟩

theorem Move.frame (m : r.Move news r') : r'.session = r.session ∧ r'.finished = r.finished := by
  cases m with
  | rests | writes => exact ⟨rfl, rfl⟩
  | uses h => cases h <;> exact ⟨rfl, rfl⟩
  | tracks e => exact track_frame e r
  | tends clock limit fuel => exact runDue_frame clock limit fuel r

/-- What runs at intervals does nothing but calm operations. -/
theorem runDue_keeps {P : Writer → Prop}
    (calm : ∀ (w : Writer) (op : Store.Operation), op.isCalm = true → P w →
      P { w with store := op.apply w.store })
    (clock : Stamp) (limit fuel : Nat) {r : Recorder} (h : P r.writer) :
    P (r.runDue clock limit fuel).writer := by
  induction fuel generalizing r with
  | zero => exact h
  | succ fuel ih =>
    rw [runDue]
    split
    · exact ih (calm _
        (.sweep Store.footprint clock r.settings.retention r.settings.maxBytes) rfl h)
    · split
      · exact ih (calm _ (.heartbeat r.session clock) rfl h)
      · exact h

/-- **Until it is closed, the session is told of what the tracker notes.** -/
theorem Move.isOpen (m : r.Move news r') (h : r.writer.IsOpen r.session noted told) :
    ∃ told', r'.writer.IsOpen r.session (noted ++ news) told' := by
  cases m with
  | rests => exact ⟨told, by rwa [List.append_nil]⟩
  | uses use =>
    rw [List.append_nil]
    cases use with
    | queue use => exact ⟨told, h.use use⟩
    | store op calm => exact ⟨told, h.calm calm⟩
  | tracks e =>
    rw [track]
    cases crash? e with
    | none => exact ⟨told, by rwa [Option.toList_none, List.append_nil]⟩
    | some f => exact h.note f
  | writes =>
    rw [List.append_nil]
    exact ⟨told, h.step⟩
  | tends clock limit fuel =>
    rw [List.append_nil]
    exact ⟨told, runDue_keeps (fun _ _ calm h ↦ h.calm calm) clock limit fuel h⟩

/-- **Once it is closed, the session stays as it is.** -/
theorem Move.isClosed (m : r.Move news r') (h : r.writer.IsClosed r.session noted told ending) :
    r'.writer.IsClosed r.session (noted ++ news) told ending := by
  cases m with
  | rests => rwa [List.append_nil]
  | uses use =>
    rw [List.append_nil]
    cases use with
    | queue use => exact h.use use
    | store op calm => exact h.calm calm
  | tracks e =>
    rw [track]
    cases crash? e with
    | none => rwa [Option.toList_none, List.append_nil]
    | some f => exact h.note f
  | writes =>
    rw [List.append_nil]
    exact h.step
  | tends clock limit fuel =>
    rw [List.append_nil]
    exact runDue_keeps (fun _ _ calm h ↦ h.calm calm) clock limit fuel h

/-- That the writer is told to stop takes nothing from the session. -/
theorem isOpen_beginFinish (h : r.writer.IsOpen r.session noted told) :
    r.beginFinish.writer.IsOpen r.beginFinish.session noted told :=
  ⟨⟨h.enabled, h.part, h.all⟩, h.last, h.through, h.session⟩

/-- **Once the writer is over, the session can be closed.** -/
theorem isClosed_closeSession (h : r.writer.IsOpen r.session noted told)
    (ended : r.writer.stage = .ended) (ending : SessionEnd) (clock : Stamp) :
    (r.closeSession ending clock).1 = .ok () ∧
      (r.closeSession ending clock).2.writer.IsClosed r.session noted told ending := by
  refine ⟨?_, h.close ended ending clock⟩
  obtain ⟨written, waiting, -, -, lost, -⟩ := h.session
  rw [closeSession, store, Store.finishSession, Store.anyChanged, Store.updateSessions,
    Store.withSessions, if_neg (Bool.eq_false_iff.mp lost)]
  rfl

/-- A recorder begins with a session that is told of nothing. -/
theorem isOpen_of_start {settings : RecordSettings} {clock : Stamp} {s : Store}
    (h : start settings clock s = .ok r) :
    r.writer.IsOpen r.session [] [] ∧ r.finished = false := by
  rw [start] at h
  split at h
  · cases h
  · split at h
    · cases h
    · rename_i s₁ _ _ id s₂ opened
      obtain ⟨here, larger, rfl⟩ := Store.beginSession_ok opened
      have first : s₁.sessions.find? (·.id == id) = none :=
        List.find?_eq_none.mpr fun old mem same ↦
          absurd (beq_iff_eq.mp same) (Int.ne_of_lt (larger old mem))
      have found : (s₁.sessions ++ [Store.SessionRow.opening id clock]).find? (·.id == id)
          = some (.opening id clock) := by
        have own : ((Store.SessionRow.opening id clock).id == id) = true := beq_self_eq_true id
        rw [List.find?_append, first, Option.none_or]
        simp only [List.find?_cons, own]
      have calm : (Store.Operation.sweep Store.footprint clock settings.retention
          settings.maxBytes).isCalm = true := rfl
      rw [← Except.ok.inj h]
      refine ⟨Writer.IsOpen.calm ?_ calm, rfl⟩
      exact ⟨⟨rfl, .refl _, fun _ ↦ rfl⟩, nofun, nofun, [], [], rfl, rfl, here, _, found, rfl,
        Store.SessionRow.hasError_opening id clock⟩

end Recorder

end Supervision
