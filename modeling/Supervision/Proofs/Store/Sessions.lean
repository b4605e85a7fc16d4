import Mathlib.Data.List.Induction
import Supervision.Proofs.Recording.OneByOne
import Supervision.Proofs.Store.Shelves

/-!
# What becomes of sessions

No operation removes a session. Each makes something of every session that is there
(`SessionRow.undergo`) and may open one more (`sessions_apply`); whatever it makes of a session, the
session stays what it was as far as it is settled (`SessionRow.Leads`). So what holds of one session
under one operation holds of all sessions over a whole history.

* `sessions_are_settled_once` — in a history in which sessions are opened only after those that were
  left open have been closed, and are closed only as a success or as an error (`IsOrderly`).
-/

namespace Supervision.Store

namespace SessionRow

/-! ### One session under one operation -/

/-- A session that is opened. -/
def opening (id : Int) (now : Stamp) : SessionRow where
  id := id
  startedAt := now.micros
  stoppedAt := none
  lastHeartbeatAt := now.micros
  status := SessionStatus.running.name
  errorType := none
  errorMessage := none
  errorTrace := none

/-- What an operation makes of a session. -/
def undergo (op : Operation) (r : SessionRow) : SessionRow :=
  match op with
  | .heartbeat id now =>
    if r.id == id && r.isRunning then { r with lastHeartbeatAt := now.micros } else r
  | .finish id status failure now =>
    if r.id == id && r.isRunning then
      { r.keepError failure with
        status := status.name
        stoppedAt := some now.micros
        lastHeartbeatAt := now.micros }
    else r
  | .noteError id f => if r.id == id && r.errorType.isNone then r.noteError f else r
  | .finalizeOrphans =>
    if r.isRunning then
      { r with status := SessionStatus.unknown.name, stoppedAt := some r.lastHeartbeatAt }
    else r
  | .upsertListener .. | .upsertJob .. | .insert .. | .begin .. | .sweep .. => r

/-- The failure of a session that an operation tells of: one noted for it, or the one that closes it
while it is running. -/
def failure? (op : Operation) (r : SessionRow) : Option Failure :=
  match op with
  | .noteError id f => if r.id == id then some f else none
  | .finish id _ failure _ => if r.id == id && r.isRunning then failure else none
  | .upsertListener .. | .upsertJob .. | .insert .. | .begin .. | .heartbeat .. | .finalizeOrphans
  | .sweep .. => none

/-- A session may turn from `a` into `b`: once it is closed it stays closed in the same way, and
once it has an error it keeps that error. -/
structure Leads (a b : SessionRow) : Prop where
  id : b.id = a.id
  startedAt : b.startedAt = a.startedAt
  closed : a.isRunning = false →
    b.status = a.status ∧ b.stoppedAt = a.stoppedAt ∧ b.lastHeartbeatAt = a.lastHeartbeatAt
  failed : a.errorType.isSome = true →
    b.errorType = a.errorType ∧ b.errorMessage = a.errorMessage ∧ b.errorTrace = a.errorTrace

/-- The columns of a session agree: its status is one there is, it has no end exactly while it is
running, and what was left open ends with its last sign of life. -/
structure IsWell (r : SessionRow) : Prop where
  status : ∃ st : SessionStatus, r.status = st.name
  stopped : r.stoppedAt = none ↔ r.isRunning = true
  orphan : r.status = SessionStatus.unknown.name → r.stoppedAt = some r.lastHeartbeatAt

/-- The error of a session is this failure, or it has none at all. -/
structure HasError (f? : Option Failure) (r : SessionRow) : Prop where
  kind : r.errorType = f?.map (·.kind)
  message : r.errorMessage = f?.map (·.message)
  trace : r.errorTrace = f?.bind (·.trace)

variable {r : SessionRow}

theorem isRunning_iff : r.isRunning = true ↔ r.status = SessionStatus.running.name := by
  rw [isRunning, beq_iff_eq]

theorem id_keepError (f? : Option Failure) (r : SessionRow) : (r.keepError f?).id = r.id := by
  rw [keepError]
  split <;> rfl

theorem startedAt_keepError (f? : Option Failure) (r : SessionRow) :
    (r.keepError f?).startedAt = r.startedAt := by
  rw [keepError]
  split <;> rfl

theorem Leads.refl (r : SessionRow) : r.Leads r :=
  ⟨rfl, rfl, fun _ ↦ ⟨rfl, rfl, rfl⟩, fun _ ↦ ⟨rfl, rfl, rfl⟩⟩

theorem Leads.trans {a b c : SessionRow} (h : a.Leads b) (h' : b.Leads c) : a.Leads c where
  id := h'.id.trans h.id
  startedAt := h'.startedAt.trans h.startedAt
  closed shut := by
    obtain ⟨status, stopped, beat⟩ := h.closed shut
    obtain ⟨status', stopped', beat'⟩ := h'.closed (by rw [isRunning, status]; exact shut)
    exact ⟨status'.trans status, stopped'.trans stopped, beat'.trans beat⟩
  failed has := by
    obtain ⟨kind, message, trace⟩ := h.failed has
    obtain ⟨kind', message', trace'⟩ := h'.failed (by rw [kind]; exact has)
    exact ⟨kind'.trans kind, message'.trans message, trace'.trans trace⟩

/-- What is done to a running session may be anything but a second error. -/
theorem leads_of_isRunning {r' : SessionRow} (running : r.isRunning = true) (id : r'.id = r.id)
    (startedAt : r'.startedAt = r.startedAt)
    (failed : r.errorType.isSome = true →
      r'.errorType = r.errorType ∧ r'.errorMessage = r.errorMessage ∧
        r'.errorTrace = r.errorTrace) :
    r.Leads r' :=
  ⟨id, startedAt, fun shut ↦ absurd (running.symm.trans shut) Bool.noConfusion, failed⟩

theorem isRunning_of_and {id : Int} (h : (r.id == id && r.isRunning) = true) :
    r.isRunning = true := (Bool.and_eq_true_iff.mp h).2

/-- An operation settles nothing of a session that was settled. -/
theorem leads_undergo (op : Operation) (r : SessionRow) : r.Leads (r.undergo op) := by
  match op with
  | .heartbeat id now =>
    rw [undergo]
    split
    · exact leads_of_isRunning (isRunning_of_and ‹_›) rfl rfl fun _ ↦ ⟨rfl, rfl, rfl⟩
    · exact .refl r
  | .finish id status failure now =>
    rw [undergo]
    split
    · refine leads_of_isRunning (isRunning_of_and ‹_›) ?_ ?_ fun has ↦ ?_
      · exact id_keepError failure r
      · exact startedAt_keepError failure r
      · rw [keepError, if_pos has]
        exact ⟨rfl, rfl, rfl⟩
    · exact .refl r
  | .noteError id f =>
    rw [undergo]
    split
    · rename_i first
      have none := (Bool.and_eq_true_iff.mp first).2
      refine ⟨rfl, rfl, fun _ ↦ ⟨rfl, rfl, rfl⟩, fun has ↦ ?_⟩
      rw [Option.isNone_iff_eq_none.mp none] at has
      exact absurd has Bool.false_ne_true
    · exact .refl r
  | .finalizeOrphans =>
    rw [undergo]
    split
    · exact leads_of_isRunning ‹_› rfl rfl fun _ ↦ ⟨rfl, rfl, rfl⟩
    · exact .refl r
  | .upsertListener .. | .upsertJob .. | .insert .. | .begin .. | .sweep .. => exact .refl r

/-- A closed session stays closed. -/
theorem Leads.isRunning {a b : SessionRow} (h : a.Leads b) (shut : a.isRunning = false) :
    b.isRunning = false := by
  rw [SessionRow.isRunning, (h.closed shut).1]
  exact shut

theorem not_isRunning_of_status (st : SessionStatus) (h : r.status = st.name)
    (closed : st ≠ .running) : r.isRunning = false := by
  rw [SessionRow.isRunning, h]
  cases st with
  | running => exact absurd rfl closed
  | success | error | unknown => decide

/-- Nothing is left running. -/
theorem not_isRunning_undergo_finalizeOrphans (r : SessionRow) :
    (r.undergo .finalizeOrphans).isRunning = false := by
  rw [undergo]
  split
  · exact not_isRunning_of_status .unknown rfl (by decide)
  · exact Bool.eq_false_iff.mpr ‹_›

theorem isWell_opening (id : Int) (now : Stamp) : (opening id now).IsWell :=
  ⟨⟨.running, rfl⟩, iff_of_true rfl (beq_self_eq_true _),
    fun h ↦ absurd (show SessionStatus.running.name = SessionStatus.unknown.name from h)
      (by decide)⟩

/-- A session that is closed as a success or as an error is closed well. -/
theorem IsWell.undergo (h : r.IsWell) (op : Operation)
    (orderly : ∀ id st f now, op = .finish id st f now → st = .success ∨ st = .error) :
    (r.undergo op).IsWell := by
  match op with
  | .heartbeat id now =>
    rw [SessionRow.undergo]
    split
    · rename_i running
      have running := isRunning_iff.mp (isRunning_of_and running)
      exact ⟨h.status, h.stopped, fun unknown ↦ absurd (running.symm.trans unknown) (by decide)⟩
    · exact h
  | .finish id status failure now =>
    rw [SessionRow.undergo]
    split
    · have closed : status ≠ .running ∧ status ≠ .unknown := by
        rcases orderly id status failure now rfl with rfl | rfl <;> decide
      refine ⟨⟨status, rfl⟩, iff_of_false (Option.some_ne_none _) ?_, fun unknown ↦ rfl⟩
      exact Bool.eq_false_iff.mp (not_isRunning_of_status status rfl closed.1)
    · exact h
  | .noteError id f =>
    rw [SessionRow.undergo]
    split
    · exact ⟨h.status, h.stopped, h.orphan⟩
    · exact h
  | .finalizeOrphans =>
    rw [SessionRow.undergo]
    split
    · refine ⟨⟨.unknown, rfl⟩, iff_of_false (Option.some_ne_none _) ?_, fun _ ↦ rfl⟩
      exact Bool.eq_false_iff.mp (not_isRunning_of_status .unknown rfl (by decide))
    · exact h
  | .upsertListener .. | .upsertJob .. | .insert .. | .begin .. | .sweep .. => exact h

theorem hasError_opening (id : Int) (now : Stamp) : (opening id now).HasError none :=
  ⟨rfl, rfl, rfl⟩

theorem HasError.isSome {f? : Option Failure} (h : r.HasError f?) :
    r.errorType.isSome = f?.isSome := by
  rw [h.kind, Option.isSome_map]

theorem HasError.eq_none_iff {f? : Option Failure} (h : r.HasError f?) :
    (r.errorType = none ∧ r.errorMessage = none ∧ r.errorTrace = none) ↔ f? = none := by
  rw [h.kind, h.message, h.trace]
  cases f? <;> simp

/-- The first failure that is told stays. -/
theorem HasError.undergo {f? : Option Failure} (h : r.HasError f?) (op : Operation) :
    (r.undergo op).HasError (f?.or (r.failure? op)) := by
  match op with
  | .heartbeat id now =>
    rw [SessionRow.undergo, SessionRow.failure?, Option.or_none]
    split
    · exact ⟨h.kind, h.message, h.trace⟩
    · exact h
  | .finish id status failure now =>
    rw [SessionRow.undergo, SessionRow.failure?]
    split
    · cases f? with
      | none =>
        have none : ¬ r.errorType.isSome = true := by rw [h.isSome]; exact Bool.false_ne_true
        rw [keepError, if_neg none]
        exact ⟨rfl, rfl, rfl⟩
      | some f =>
        have some : r.errorType.isSome = true := h.isSome
        rw [keepError, if_pos some]
        exact ⟨h.kind, h.message, h.trace⟩
    · rw [Option.or_none]
      exact h
  | .noteError id f =>
    rw [SessionRow.undergo, SessionRow.failure?]
    by_cases own : (r.id == id) = true
    · rw [own, Bool.true_and, if_pos rfl]
      cases f? with
      | none =>
        rw [if_pos (by rw [h.kind]; rfl)]
        exact ⟨rfl, rfl, rfl⟩
      | some f =>
        rw [if_neg (by rw [h.kind]; exact Bool.false_ne_true)]
        exact h
    · rw [if_neg own, if_neg (by rw [Bool.eq_false_iff.mpr own]; exact Bool.false_ne_true),
        Option.or_none]
      exact h
  | .finalizeOrphans =>
    rw [SessionRow.undergo, SessionRow.failure?, Option.or_none]
    split
    · exact ⟨h.kind, h.message, h.trace⟩
    · exact h
  | .upsertListener .. | .upsertJob .. | .insert .. | .begin .. | .sweep .. =>
    rw [SessionRow.failure?, Option.or_none]
    exact h

end SessionRow

/-! ### All sessions under one operation -/

namespace Operation

/-- The operation changes sessions that are there. -/
def revises : Operation → Bool
  | .heartbeat .. | .finish .. | .noteError .. | .finalizeOrphans => true
  | .upsertListener .. | .upsertJob .. | .insert .. | .begin .. | .sweep .. => false

/-- The operation is about registrations and records. -/
def isOnShelves : Operation → Bool
  | .upsertListener .. | .upsertJob .. | .insert .. | .sweep .. => true
  | .begin .. | .heartbeat .. | .finish .. | .noteError .. | .finalizeOrphans => false

/-- The session that an operation opens. -/
def opened? (op : Operation) (s : Store) : Option SessionRow :=
  match op with
  | .begin now => if maxId < s.nextSession then none else some (.opening s.nextSession now)
  | .upsertListener .. | .upsertJob .. | .insert .. | .heartbeat .. | .finish .. | .noteError ..
  | .finalizeOrphans | .sweep .. => none

/-- The first failure of a session that operations tell of. -/
def firstFailure? (id : Int) : Store → List Operation → Option Failure
  | _, [] => none
  | s, op :: ops =>
    ((s.sessions.find? (·.id == id)).bind (·.failure? op)).or (firstFailure? id (op.apply s) ops)

end Operation

/-- Whatever there is about sessions is the same. -/
structure SameSessions (s s' : Store) : Prop where
  rows : s'.sessions = s.sessions
  given : s'.sessionsGiven = s.sessionsGiven
  lost : s'.sessionsLost = s.sessionsLost

variable {s : Store}

theorem updateSessions_snd (lost : s.sessionsLost = false) (p : SessionRow → Bool)
    (f : SessionRow → SessionRow) :
    (s.updateSessions p f).2 =
      { s with sessions := s.sessions.map fun r ↦ if p r then f r else r } := by
  rw [updateSessions, withSessions, if_neg (Bool.eq_false_iff.mp lost)]

/-- Sessions are changed one by one, and nothing else is. -/
theorem apply_of_revises (lost : s.sessionsLost = false) {op : Operation} (h : op.revises = true) :
    op.apply s = { s with sessions := s.sessions.map (·.undergo op) } := by
  cases op with
  | heartbeat | finish | noteError | finalizeOrphans => exact updateSessions_snd lost _ _
  | _ => cases h

/-- A session is opened, and nothing else happens. -/
theorem apply_begin (lost : s.sessionsLost = false) (now : Stamp) :
    (Operation.begin now).apply s =
      if maxId < s.nextSession then s
      else
        { s with
          sessions := s.sessions ++ [.opening s.nextSession now]
          sessionsGiven := s.nextSession } := by
  rw [Operation.apply, beginSession, withSessions, if_neg (Bool.eq_false_iff.mp lost)]
  dsimp only
  split <;> rfl

/-- What happens to registrations and records does not concern sessions. -/
theorem sameSessions_apply {op : Operation} (h : op.isOnShelves = true) :
    SameSessions s (op.apply s) := by
  have same : SameSessions s s := ⟨rfl, rfl, rfl⟩
  match op with
  | .upsertListener l now => exact ⟨rfl, rfl, rfl⟩
  | .upsertJob j now => exact ⟨rfl, rfl, rfl⟩
  | .insert faults rs =>
    refine insertRecordsWith_keeps (fun t r _ kept ↦ ?_) faults rs same
    rw [append]
    split <;> exact ⟨kept.rows, kept.given, kept.lost⟩
  | .sweep used now retention limit =>
    exact sweep_keeps (fun _ _ kept ↦ ⟨kept.rows, kept.given, kept.lost⟩)
      (fun _ kept ↦ ⟨kept.rows, kept.given, kept.lost⟩)
      (fun _ _ kept ↦ ⟨kept.rows, kept.given, kept.lost⟩) used now retention limit same

theorem map_undergo_of_not_revises {op : Operation} (h : op.revises = false)
    (rows : List SessionRow) : rows.map (·.undergo op) = rows := by
  match op with
  | .upsertListener .. | .upsertJob .. | .insert .. | .begin .. | .sweep .. =>
    exact List.map_id rows

/-- **Every session becomes what the operation makes of it, and one may be opened.** -/
theorem sessions_apply (lost : s.sessionsLost = false) (op : Operation) :
    (op.apply s).sessions = s.sessions.map (·.undergo op) ++ (op.opened? s).toList := by
  match op with
  | .begin now =>
    rw [apply_begin lost, Operation.opened?, map_undergo_of_not_revises rfl]
    split
    · exact (List.append_nil _).symm
    · rfl
  | .heartbeat .. | .finish .. | .noteError .. | .finalizeOrphans =>
    rw [apply_of_revises lost rfl]
    exact (List.append_nil _).symm
  | .upsertListener .. | .upsertJob .. | .insert .. | .sweep .. =>
    rw [(sameSessions_apply rfl).rows, map_undergo_of_not_revises rfl]
    exact (List.append_nil _).symm

/-- Sessions are not lost by what is done. -/
theorem sessionsLost_apply (lost : s.sessionsLost = false) (op : Operation) :
    (op.apply s).sessionsLost = false := by
  match op with
  | .begin now =>
    rw [apply_begin lost]
    split <;> exact lost
  | .heartbeat .. | .finish .. | .noteError .. | .finalizeOrphans =>
    rw [apply_of_revises lost rfl]
    exact lost
  | .upsertListener .. | .upsertJob .. | .insert .. | .sweep .. =>
    rw [(sameSessions_apply rfl).lost]
    exact lost

/-! ### Numbers -/

/-- The numbers of sessions stay, and the next one may be added. -/
theorem sessionIds_apply (lost : s.sessionsLost = false) (op : Operation) :
    (op.apply s).sessions.map (·.id) =
      s.sessions.map (·.id) ++ (op.opened? s).toList.map (·.id) := by
  rw [sessions_apply lost, List.map_append, List.map_map]
  congr 1
  exact List.map_congr_left fun r _ ↦ (r.leads_undergo op).id

theorem sessionIds_subset_apply (lost : s.sessionsLost = false) (op : Operation) :
    s.sessions.map (·.id) ⊆ (op.apply s).sessions.map (·.id) := by
  rw [sessionIds_apply lost]
  exact List.subset_append_left _ _

theorem lt_nextSession {id : Int} (h : id ∈ s.sessions.map (·.id)) : id < s.nextSession :=
  Int.lt_of_lt_of_le (lt_nextId h) (Int.le_max_left _ _)

theorem opening_of_opened? {op : Operation} {r : SessionRow} (h : op.opened? s = some r) :
    ∃ now, op = .begin now ∧ r = .opening s.nextSession now := by
  cases op with
  | begin now =>
    rw [Operation.opened?] at h
    split at h
    · cases h
    · exact ⟨now, rfl, (Option.some.inj h).symm⟩
  | _ => cases h

theorem id_of_opened? {op : Operation} {r : SessionRow} (h : op.opened? s = some r) :
    r.id = s.nextSession := by
  obtain ⟨now, -, rfl⟩ := opening_of_opened? h
  rfl

/-- Numbers of sessions ascend, and sessions are there. -/
structure HasSessions (s : Store) : Prop where
  here : s.sessionsLost = false
  ascend : (s.sessions.map (·.id)).Pairwise (· < ·)

theorem HasSessions.apply (h : s.HasSessions) (op : Operation) : (op.apply s).HasSessions where
  here := sessionsLost_apply h.here op
  ascend := by
    rw [sessionIds_apply h.here, List.pairwise_append]
    refine ⟨h.ascend, ?_, fun old mem new added ↦ ?_⟩
    · cases op.opened? s with
      | none => exact .nil
      | some r => exact List.pairwise_singleton _ _
    · obtain ⟨r, opened, rfl⟩ := List.mem_map.mp added
      rw [id_of_opened? (Option.mem_toList.mp opened)]
      exact lt_nextSession mem

theorem hasSessions_empty : HasSessions {} := ⟨rfl, .nil⟩

theorem hasSessions_after (ops : List Operation) : (after ops {}).HasSessions :=
  after_keeps (fun _ op h ↦ h.apply op) ops {} hasSessions_empty

theorem after_concat (ops : List Operation) (op : Operation) :
    s.after (ops ++ [op]) = op.apply (s.after ops) := after_append ops [op] s

/-- The session with a number. -/
theorem HasSessions.find? (h : s.HasSessions) {r : SessionRow} (mem : r ∈ s.sessions) :
    s.sessions.find? (·.id == r.id) = some r := by
  obtain ⟨r', found⟩ : ∃ r', s.sessions.find? (·.id == r.id) = some r' :=
    Option.isSome_iff_exists.mp (List.find?_isSome.mpr ⟨r, mem, beq_self_eq_true _⟩)
  have there := List.mem_of_find?_eq_some found
  have same : r'.id = r.id := by simpa using List.find?_some found
  rw [found, List.inj_on_of_nodup_map (h.ascend.imp fun lt ↦ Int.ne_of_lt lt) there mem same]

/-! ### Whole histories -/

/-- Sessions are only opened right after what was left open was closed, and are only closed as a
success or as an error. -/
structure IsOrderly (ops : List Operation) : Prop where
  begins : ∀ before now rest, ops = before ++ .begin now :: rest →
    before.getLast? = some .finalizeOrphans
  finishes : ∀ id st failure now, .finish id st failure now ∈ ops → st = .success ∨ st = .error

theorem IsOrderly.before {ops more : List Operation} (h : IsOrderly (ops ++ more)) :
    IsOrderly ops where
  begins before now rest split :=
    h.begins before now (rest ++ more) (by rw [split, List.append_assoc, List.cons_append])
  finishes id st failure now mem := h.finishes id st failure now (List.mem_append_left _ mem)

/-- No session is removed, and each becomes one that it may turn into. -/
theorem exists_leads_after (h : s.HasSessions) (ops : List Operation) {r : SessionRow}
    (mem : r ∈ s.sessions) : ∃ r' ∈ (s.after ops).sessions, r.Leads r' := by
  induction ops generalizing s r with
  | nil => exact ⟨r, mem, .refl r⟩
  | cons op ops ih =>
    have next : r.undergo op ∈ (op.apply s).sessions := by
      rw [sessions_apply h.here]
      exact List.mem_append_left _ (List.mem_map_of_mem mem)
    obtain ⟨r', there, leads⟩ := ih (h.apply op) next
    exact ⟨r', there, (r.leads_undergo op).trans leads⟩

/-- A session is among those before the operation, or it was opened by it. -/
theorem mem_sessions_apply (lost : s.sessionsLost = false) {op : Operation} {r : SessionRow} :
    r ∈ (op.apply s).sessions ↔
      (∃ old ∈ s.sessions, old.undergo op = r) ∨ op.opened? s = some r := by
  rw [sessions_apply lost, List.mem_append, List.mem_map, Option.mem_toList]

/-- The columns of every session agree. -/
theorem isWell_after {ops : List Operation} (orderly : IsOrderly ops) :
    ∀ r ∈ (after ops {}).sessions, r.IsWell := by
  induction ops using List.reverseRecOn with
  | nil => exact List.forall_mem_nil _
  | append_singleton ops op ih =>
    intro r mem
    rw [after_concat, mem_sessions_apply (hasSessions_after ops).here] at mem
    rcases mem with ⟨old, there, rfl⟩ | opened
    · refine (ih orderly.before old there).undergo op fun id st failure now same ↦ ?_
      exact orderly.finishes id st failure now
        (same ▸ List.mem_append_right _ List.mem_cons_self)
    · obtain ⟨now, -, rfl⟩ := opening_of_opened? opened
      exact SessionRow.isWell_opening _ now

theorem countP_map_undergo_le (op : Operation) (rows : List SessionRow) :
    (rows.map (·.undergo op)).countP (·.isRunning) ≤ rows.countP (·.isRunning) := by
  rw [List.countP_map]
  refine List.countP_mono_left fun r _ running ↦ ?_
  by_contra shut
  exact absurd running
    (Bool.eq_false_iff.mp ((r.leads_undergo op).isRunning (Bool.eq_false_iff.mpr shut)))

theorem countP_isRunning_finalizeOrphans (lost : s.sessionsLost = false) :
    (Operation.finalizeOrphans.apply s).sessions.countP (·.isRunning) = 0 := by
  rw [apply_of_revises lost rfl, List.countP_map, List.countP_eq_zero]
  exact fun r _ ↦ Bool.eq_false_iff.mp r.not_isRunning_undergo_finalizeOrphans

/-- At most one session is running. -/
theorem countP_isRunning_after {ops : List Operation} (orderly : IsOrderly ops) :
    (after ops {}).sessions.countP (·.isRunning) ≤ 1 := by
  induction ops using List.reverseRecOn with
  | nil => exact Nat.zero_le 1
  | append_singleton ops op ih =>
    have here := (hasSessions_after ops).here
    have before :=
      Nat.le_trans (countP_map_undergo_le op (after ops {}).sessions) (ih orderly.before)
    rw [after_concat, sessions_apply here, List.countP_append]
    cases opened : op.opened? (after ops {}) with
    | none => exact before
    | some r =>
      -- What was left open has just been closed, so the new session is the only one.
      obtain ⟨now, rfl, -⟩ := opening_of_opened? opened
      obtain ⟨init, rfl⟩ := List.getLast?_eq_some_iff.mp (orderly.begins ops now [] rfl)
      have none : (after (init ++ [.finalizeOrphans]) {}).sessions.countP (·.isRunning) = 0 := by
        rw [after_concat]
        exact countP_isRunning_finalizeOrphans (hasSessions_after init).here
      rw [map_undergo_of_not_revises rfl, none, Nat.zero_add]
      exact List.countP_le_length

/-- Nothing is told of a session that is never there. -/
theorem firstFailure?_eq_none (h : s.HasSessions) {id : Int} {ops : List Operation}
    (never : id ∉ (s.after ops).sessions.map (·.id)) : Operation.firstFailure? id s ops = none := by
  induction ops generalizing s with
  | nil => rfl
  | cons op ops ih =>
    rw [Operation.firstFailure?, ih (h.apply op) never, Option.or_none]
    cases found : s.sessions.find? (·.id == id) with
    | none => rfl
    | some r =>
      obtain ⟨r', there, leads⟩ :=
        exists_leads_after h (op :: ops) (List.mem_of_find?_eq_some found)
      have same : r.id = id := by simpa using List.find?_some found
      exact absurd (List.mem_map.mpr ⟨r', there, leads.id.trans same⟩) never

theorem firstFailure?_concat (id : Int) (ops : List Operation) (op : Operation) :
    Operation.firstFailure? id s (ops ++ [op]) =
      (Operation.firstFailure? id s ops).or
        (((s.after ops).sessions.find? (·.id == id)).bind (·.failure? op)) := by
  induction ops generalizing s with
  | nil =>
    rw [List.nil_append, Operation.firstFailure?, Operation.firstFailure?,
      Operation.firstFailure?, Option.or_none, Option.none_or]
    rfl
  | cons first ops ih =>
    rw [List.cons_append, Operation.firstFailure?, ih, Operation.firstFailure?, Option.or_assoc]
    rfl

/-- The error of every session is the first failure that was told of it. -/
theorem hasError_after (ops : List Operation) :
    ∀ r ∈ (after ops {}).sessions, r.HasError (Operation.firstFailure? r.id {} ops) := by
  induction ops using List.reverseRecOn with
  | nil => exact List.forall_mem_nil _
  | append_singleton ops op ih =>
    intro r mem
    have h := hasSessions_after ops
    rw [after_concat, mem_sessions_apply h.here] at mem
    rw [firstFailure?_concat]
    rcases mem with ⟨old, there, rfl⟩ | opened
    · rw [(old.leads_undergo op).id, h.find? there]
      exact (ih old there).undergo op
    · have new : r.id ∉ (after ops {}).sessions.map (·.id) := fun mem ↦
        absurd (id_of_opened? opened ▸ lt_nextSession mem) (Int.lt_irrefl _)
      have unknown : (after ops {}).sessions.find? (·.id == r.id) = none :=
        List.find?_eq_none.mpr fun old there same ↦
          new (List.mem_map.mpr ⟨old, there, by simpa using same⟩)
      rw [firstFailure?_eq_none hasSessions_empty new, unknown]
      obtain ⟨now, -, rfl⟩ := opening_of_opened? opened
      exact SessionRow.hasError_opening _ now

/-- The number of a session that is opened is new and larger than all before. -/
theorem beginSession_ok {now : Stamp} {id : Int} {s' : Store}
    (opened : s.beginSession now = (.ok id, s')) :
    s.sessionsLost = false ∧ (∀ r ∈ s.sessions, r.id < id) ∧
      s' = { s with sessions := s.sessions ++ [.opening id now], sessionsGiven := id } := by
  rw [beginSession, withSessions] at opened
  split at opened
  · cases opened
  · rename_i lost
    dsimp only at opened
    split at opened
    · cases opened
    · obtain ⟨rfl, rfl⟩ : s.nextSession = id ∧ _ := by
        simpa only [Prod.mk.injEq, Except.ok.injEq] using opened
      exact ⟨Bool.eq_false_iff.mpr lost, fun r mem ↦ lt_nextSession (List.mem_map_of_mem mem), rfl⟩

/-- **Everything about a session is settled once.** After every orderly history

* numbers of sessions ascend, and at most one session is running;
* the columns of every session agree, and its error is the first failure that was told of it;
* every session there was at an earlier moment is there, and is closed and failed as it was then;
* a session that was opened got a number larger than all before.
-/
theorem sessions_are_settled_once {ops : List Operation} (orderly : IsOrderly ops) :
    ((after ops {}).sessions.map (·.id)).Pairwise (· < ·) ∧
      (after ops {}).sessions.countP (·.isRunning) ≤ 1 ∧
      (∀ r ∈ (after ops {}).sessions,
        r.IsWell ∧ r.HasError (Operation.firstFailure? r.id {} ops)) ∧
      (∀ before later, ops = before ++ later → ∀ r ∈ (after before {}).sessions,
        ∃ r' ∈ (after ops {}).sessions, r.Leads r') ∧
      ∀ before now later, ops = before ++ .begin now :: later →
        ∀ id s', (after before {}).beginSession now = (.ok id, s') →
          (∀ r ∈ (after before {}).sessions, r.id < id) ∧
            s'.sessions = (after before {}).sessions ++ [.opening id now] := by
  refine ⟨(hasSessions_after ops).ascend, countP_isRunning_after orderly, fun r mem ↦ ?_, ?_, ?_⟩
  · exact ⟨isWell_after orderly r mem, hasError_after ops r mem⟩
  · rintro before later rfl r mem
    rw [after_append]
    exact exists_leads_after (hasSessions_after before) later mem
  · rintro before now later - id s' opened
    obtain ⟨-, larger, rfl⟩ := beginSession_ok opened
    exact ⟨larger, rfl⟩

/-- A process that goes away after an error, and one that closes its session twice. -/
def twoLives : List Operation :=
  [.finalizeOrphans, .begin ⟨0⟩, .noteError 1 (.plain "io" "no space"),
    .noteError 1 (.plain "io" "still no space"), .finalizeOrphans, .begin ⟨2000⟩,
    .finish 2 .success none ⟨5000⟩, .finish 2 .error (some (.plain "io" "too late")) ⟨9000⟩]

/-- The first session keeps the first of its errors and is closed as unknown; the second stays a
success. -/
theorem two_lives_are_settled_once :
    IsOrderly twoLives ∧
      (after twoLives {}).sessions.map (fun r ↦ (r.id, r.status, r.stoppedAt, r.errorMessage)) =
        [(1, "unknown", some 0, some "no space"), (2, "success", some 5, none)] ∧
      (∀ r ∈ (after twoLives {}).sessions,
        r.IsWell ∧ r.HasError (Operation.firstFailure? r.id {} twoLives)) ∧
      ∀ r ∈ (after (twoLives.take 7) {}).sessions, ∃ r' ∈ (after twoLives {}).sessions,
        r.Leads r' := by
  have orderly : IsOrderly twoLives := by
    constructor
    · intro before now rest split
      simp only [twoLives, List.cons_eq_append_iff, List.cons.injEq, reduceCtorEq, false_and,
        and_false, Operation.begin.injEq, List.nil_eq, List.append_eq_nil_iff, exists_const,
        or_self, or_false, ↓existsAndEq, true_and, false_or] at split
      obtain ⟨_, rfl, ⟨rfl, -⟩ | ⟨rfl, -⟩⟩ := split <;> rfl
    · intro id st failure now mem
      simp only [twoLives, List.mem_cons, reduceCtorEq, Operation.finish.injEq, List.not_mem_nil,
        or_false, false_or] at mem
      rcases mem with ⟨-, rfl, -⟩ | ⟨-, rfl, -⟩
      · exact .inl rfl
      · exact .inr rfl
  obtain ⟨-, -, rows, earlier, -⟩ := sessions_are_settled_once orderly
  exact ⟨orderly, by decide, rows, earlier _ (twoLives.drop 7) (List.take_append_drop 7 _).symm⟩

end Supervision.Store
