import Supervision.Proofs.Store.Integrity

/-!
# What a batch of records leaves

A batch of records is added in one transaction. Whether a record is kept depends on what the store
knew before the batch (`Knows`), because adding records changes neither registrations nor sessions
(`accepts_append`). So a batch that meets no fault leaves the store with just the records that are
known, in their order and under numbers that no record of their families has (`Gains`). They are the
next numbers, which ascend, as long as there is room for them behind the largest one (`HasRoom`);
after that numbers are drawn, and they may come out below it (`ring_after_the_top`).

The batch is followed record by record (`insertFrom_of_unmet`, `insertFrom_of_met`). A fault may
come at any record or at the end; whatever had been added by then is given up with the transaction.

* `batch_is_taken_or_refused` — both cases for every store, every batch and all faults.
-/

namespace Supervision.Store

variable {s s' : Store} {rs : List Record}

/-! ### Records that are known -/

/-- The registration of a record stands in the table of its own family, and its session is there. -/
def Knows (s : Store) (r : Record) : Prop :=
  r.target.id ∈ s.registrationIds r.target.family ∧ r.session ∈ s.sessions.map (·.id)

instance (s : Store) (r : Record) : Decidable (s.Knows r) :=
  inferInstanceAs (Decidable (_ ∧ _))

theorem accepts_eq (s : Store) (r : Record) : s.accepts r = decide (s.Knows r) := by
  rw [Bool.eq_iff_iff, decide_eq_true_iff, accepts, Bool.and_eq_true, List.contains_iff_mem,
    List.contains_iff_mem, Knows]

/-! ### One more record -/

theorem sameSessions_append (r : Record) (s : Store) : SameSessions s (s.append r) := by
  rw [append]
  cases r.target.family <;> exact ⟨rfl, rfl, rfl⟩

theorem registrations_append (r : Record) (s : Store) :
    (s.append r).listeners.registrations = s.listeners.registrations ∧
      (s.append r).jobs.registrations = s.jobs.registrations := by
  rw [append]
  cases r.target.family <;> exact ⟨rfl, rfl⟩

theorem lot_append (r : Record) (s : Store) : (s.append r).lot = s.lot := by
  rw [append]
  cases r.target.family <;> rfl

theorem records_append (r : Record) (s : Store) (f : Family) :
    (s.append r).records f =
      if r.target.family = f then
        s.records f ++ [.ofRecord (s.lot.next ((s.records f).map (·.id))) r]
      else s.records f := by
  rw [append]
  cases f <;> cases r.target.family <;> rfl

/-- A record changes nothing that decides about the records after it. -/
theorem accepts_append (r x : Record) (s : Store) : (s.append r).accepts x = s.accepts x := by
  obtain ⟨listeners, jobs⟩ := registrations_append r s
  have ids : (s.append r).registrationIds x.target.family =
      s.registrationIds x.target.family := by
    cases x.target.family with
    | listener => exact congrArg (List.map (·.id)) listeners
    | job => exact congrArg (List.map (·.id)) jobs
  rw [accepts, accepts, ids, (sameSessions_append r s).rows]

/-! ### The rows of a batch -/

theorem nextId_concat (ids : List Int) : nextId (ids ++ [nextId ids]) = nextId ids + 1 := by
  have top : (ids ++ [nextId ids]).max? = some (nextId ids) := by
    refine List.max?_eq_some_iff.mpr ⟨List.mem_append_right _ List.mem_cons_self, fun n mem ↦ ?_⟩
    rcases List.mem_append.mp mem with old | new
    · exact Int.le_of_lt (lt_nextId old)
    · exact Int.le_of_eq (List.mem_singleton.mp new)
  rw [nextId, top]

/-- The rows of records under consecutive numbers from `n` on. -/
def rowsFrom (n : Int) : List Record → List RecordRow
  | [] => []
  | r :: rs => .ofRecord n r :: rowsFrom (n + 1) rs

theorem le_of_mem_rowsFrom {n : Int} {row : RecordRow} (h : row ∈ rowsFrom n rs) : n ≤ row.id := by
  induction rs generalizing n with
  | nil => cases h
  | cons r rs ih =>
    rcases List.mem_cons.mp h with rfl | later
    · exact Int.le_refl n
    · exact Int.le_trans (Int.le_of_lt (Int.lt_succ n)) (ih later)

theorem ascend_rowsFrom (n : Int) (rs : List Record) :
    ((rowsFrom n rs).map (·.id)).Pairwise (· < ·) := by
  induction rs generalizing n with
  | nil => exact .nil
  | cons r rs ih =>
    rw [rowsFrom, List.map_cons, List.pairwise_cons]
    refine ⟨List.forall_mem_map.mpr fun row later ↦ ?_, ih (n + 1)⟩
    exact Int.lt_of_lt_of_le (Int.lt_succ n) (le_of_mem_rowsFrom later)

/-- The rows that records are stored as, one after the other, when these numbers are given away. -/
def rowsAfter (lot : Lot) (ids : List Int) : List Record → List RecordRow
  | [] => []
  | r :: rs => .ofRecord (lot.next ids) r :: rowsAfter lot (ids ++ [lot.next ids]) rs

variable {lot : Lot} {ids : List Int}

/-- A row holds one of the records. -/
theorem exists_of_mem_rowsAfter {row : RecordRow} (h : row ∈ rowsAfter lot ids rs) :
    ∃ r ∈ rs, row = .ofRecord row.id r := by
  induction rs generalizing ids with
  | nil => cases h
  | cons r rs ih =>
    rcases List.mem_cons.mp h with rfl | later
    · exact ⟨r, List.mem_cons_self, rfl⟩
    · obtain ⟨x, mem, same⟩ := ih later
      exact ⟨x, List.mem_cons_of_mem r mem, same⟩

/-- Every row has a number of its own, which nobody had before. -/
theorem fresh_rowsAfter (lot : Lot) (ids : List Int) (rs : List Record) :
    ((rowsAfter lot ids rs).map (·.id)).Nodup ∧
      ∀ n ∈ ids, n ∉ (rowsAfter lot ids rs).map (·.id) := by
  induction rs generalizing ids with
  | nil => exact ⟨.nil, fun _ _ ↦ List.not_mem_nil⟩
  | cons r rs ih =>
    obtain ⟨own, others⟩ := ih (ids ++ [lot.next ids])
    rw [rowsAfter, List.map_cons]
    refine ⟨List.nodup_cons.mpr ⟨others _ (List.mem_append_right _ List.mem_cons_self), own⟩, ?_⟩
    intro n mem again
    rcases List.mem_cons.mp again with rfl | later
    · exact lot.next_notMem ids mem
    · exact others n (List.mem_append_left _ mem) later

/-- As long as there is room, the rows have consecutive numbers. -/
theorem rowsAfter_eq_rowsFrom (room : nextId ids + (rs.length : Int) ≤ maxId + 1) :
    rowsAfter lot ids rs = rowsFrom (nextId ids) rs := by
  induction rs generalizing ids with
  | nil => rfl
  | cons r rs ih =>
    rw [List.length_cons, Int.natCast_succ] at room
    have next : lot.next ids = nextId ids := if_pos (by omega)
    rw [rowsAfter, rowsFrom, next, ih (by rw [nextId_concat]; omega), nextId_concat]

/-- The rows have numbers that rows may have. -/
theorem rowsAfter_inRange (few : (ids.length : Int) + rs.length ≤ maxDrawn) {row : RecordRow}
    (h : row ∈ rowsAfter lot ids rs) : row.id ≤ maxId := by
  induction rs generalizing ids with
  | nil => cases h
  | cons r rs ih =>
    rw [List.length_cons, Int.natCast_succ] at few
    rcases List.mem_cons.mp h with rfl | later
    · exact lot.next_le_maxId (by omega)
    · refine ih ?_ later
      rw [List.length_append, List.length_singleton, Int.natCast_add]
      omega

/-- The rows that records of a family are stored as. -/
def newRows (f : Family) (rs : List Record) (s : Store) : List RecordRow :=
  rowsAfter s.lot ((s.records f).map (·.id)) (rs.filter (·.target.family = f))

/-- Behind the largest number of a family there is room for its records. -/
def HasRoom (f : Family) (rs : List Record) (s : Store) : Prop :=
  nextId ((s.records f).map (·.id)) + ((rs.filter (·.target.family = f)).length : Int) ≤ maxId + 1

/-- How the new records of a family are numbered. -/
structure NumbersAnew (f : Family) (rs : List Record) (s : Store) : Prop where
  /-- Each has a number of its own. -/
  own : ((s.newRows f rs).map (·.id)).Nodup
  /-- None of the records that are there has it. -/
  free : ∀ old ∈ s.records f, ∀ new ∈ s.newRows f rs, old.id ≠ new.id
  /-- With room for all of them they get the next numbers, one after the other. -/
  next : s.HasRoom f rs → s.newRows f rs =
    rowsFrom (nextId ((s.records f).map (·.id))) (rs.filter (·.target.family = f))
  /-- Then their numbers ascend. -/
  ascend : s.HasRoom f rs → ((s.newRows f rs).map (·.id)).Pairwise (· < ·)
  /-- Then their numbers are above all that are there. -/
  above : s.HasRoom f rs → ∀ old ∈ s.records f, ∀ new ∈ s.newRows f rs, old.id < new.id
  /-- Numbers are those that a row may have, unless the table is full beyond all measure. -/
  inRange : ((s.records f).length : Int) + (rs.filter (·.target.family = f)).length ≤ maxDrawn →
    ∀ new ∈ s.newRows f rs, new.id ≤ maxId

theorem numbersAnew (f : Family) (rs : List Record) (s : Store) : s.NumbersAnew f rs := by
  have next (room : s.HasRoom f rs) : s.newRows f rs =
      rowsFrom (nextId ((s.records f).map (·.id))) (rs.filter (·.target.family = f)) :=
    rowsAfter_eq_rowsFrom room
  obtain ⟨own, free⟩ := fresh_rowsAfter s.lot ((s.records f).map (·.id))
    (rs.filter (·.target.family = f))
  refine ⟨own, fun old there new added same ↦ ?_, next, fun room ↦ ?_,
    fun room old there new added ↦ ?_, fun few new added ↦ ?_⟩
  · exact free old.id (List.mem_map_of_mem there) (same ▸ List.mem_map_of_mem added)
  · rw [next room]
    exact ascend_rowsFrom _ _
  · rw [next room] at added
    exact Int.lt_of_lt_of_le (lt_nextId (List.mem_map_of_mem there)) (le_of_mem_rowsFrom added)
  · exact rowsAfter_inRange (by rwa [List.length_map]) added

/-- The records were added and nothing else happened: each stands at the end of the records of its
family, in the order of the batch and under a number of its own. -/
structure Gains (rs : List Record) (s s' : Store) : Prop where
  sessions : SameSessions s s'
  listeners : s'.listeners.registrations = s.listeners.registrations
  jobs : s'.jobs.registrations = s.jobs.registrations
  lot : s'.lot = s.lot
  records : ∀ f, s'.records f = s.records f ++ s.newRows f rs
  numbers : ∀ f, s.NumbersAnew f rs := fun f ↦ numbersAnew f rs s

theorem Gains.nil (s : Store) : Gains [] s s where
  sessions := ⟨rfl, rfl, rfl⟩
  listeners := rfl
  jobs := rfl
  lot := rfl
  records f := (List.append_nil (s.records f)).symm

/-- One record is added, and then the others. -/
theorem Gains.cons {r : Record} (h : Gains rs (s.append r) s') : Gains (r :: rs) s s' where
  sessions :=
    have first := sameSessions_append r s
    ⟨h.sessions.rows.trans first.rows, h.sessions.given.trans first.given,
      h.sessions.lost.trans first.lost⟩
  listeners := h.listeners.trans (registrations_append r s).1
  jobs := h.jobs.trans (registrations_append r s).2
  lot := h.lot.trans (lot_append r s)
  records f := by
    rw [h.records f, newRows, newRows, records_append, lot_append, List.filter_cons]
    by_cases own : r.target.family = f
    · rw [if_pos own, if_pos (decide_eq_true own), rowsAfter, List.map_append, List.append_assoc]
      rfl
    · rw [if_neg own, if_neg (mt of_decide_eq_true own)]

/-! ### A batch, record by record -/

/-- The fault that meets `n` records which stand in a batch from position `i` on: the first one at
such a record, or else the one at the end. -/
def Faults.met (faults : Faults) (i n : Nat) : Option StoreError :=
  ((List.range' i n).findSome? faults.atRecord).or faults.atCommit

theorem Faults.met_succ (faults : Faults) (i n : Nat) :
    faults.met i (n + 1) = (faults.atRecord i).or (faults.met (i + 1) n) := by
  rw [met, met, List.range'_succ, List.findSome?_cons]
  cases faults.atRecord i <;> rfl

/-- No fault is met exactly when there is none at any of the records and none at the end. -/
theorem Faults.met_eq_none_iff (faults : Faults) (i n : Nat) :
    faults.met i n = none ↔
      (∀ j, i ≤ j → j < i + n → faults.atRecord j = none) ∧ faults.atCommit = none := by
  rw [met, Option.or_eq_none_iff, List.findSome?_eq_none_iff]
  simp only [List.mem_range'_1, and_imp]

variable {faults : Faults} {i : Nat}

/-- Without a fault, the records that are known are added and counted. -/
theorem insertFrom_of_unmet (s : Store) (written : Nat) (h : faults.met i rs.length = none) :
    ∃ s', insertFrom faults i written s rs = (.ok (written + rs.countP s.accepts), s') ∧
      s.Gains (rs.filter s.accepts) s' := by
  induction rs generalizing i written s with
  | nil =>
    have none : faults.atCommit = none := h
    rw [insertFrom, none]
    exact ⟨s, rfl, .nil s⟩
  | cons r rs ih =>
    rw [List.length_cons, Faults.met_succ, Option.or_eq_none_iff] at h
    rw [insertFrom, h.1]
    dsimp only
    by_cases keeps : s.accepts r = true
    · -- The rest is judged by the store with this record, which accepts the same ones.
      have judges : (s.append r).accepts = s.accepts := funext fun x ↦ accepts_append r x s
      obtain ⟨s', added, gains⟩ := ih (s.append r) (written + 1) h.2
      rw [judges] at added gains
      rw [if_pos keeps, List.countP_cons_of_pos keeps, List.filter_cons_of_pos keeps]
      refine ⟨s', added.trans ?_, gains.cons⟩
      rw [Nat.add_right_comm, Nat.add_assoc]
    · obtain ⟨s', added, gains⟩ := ih s written h.2
      rw [if_neg keeps, List.countP_cons_of_neg keeps, List.filter_cons_of_neg keeps]
      exact ⟨s', added, gains⟩

/-- A fault ends the batch, and it is told. -/
theorem insertFrom_of_met {e : StoreError} (s : Store) (written : Nat)
    (h : faults.met i rs.length = some e) :
    ∃ s', insertFrom faults i written s rs = (.error e, s') := by
  induction rs generalizing i written s with
  | nil =>
    have last : faults.atCommit = some e := h
    rw [insertFrom, last]
    exact ⟨s, rfl⟩
  | cons r rs ih =>
    rw [List.length_cons, Faults.met_succ] at h
    rw [insertFrom]
    cases here : faults.atRecord i with
    | some first =>
      rw [here, Option.some_or] at h
      rw [Option.some.inj h]
      exact ⟨s, rfl⟩
    | none =>
      rw [here, Option.none_or] at h
      dsimp only
      split
      · exact ih _ _ h
      · exact ih _ _ h

theorem transaction_of_ok {β : Type} {body : Store → Result β} {b : β}
    (h : body s = (.ok b, s')) : s.transaction body = (.ok b, s') := by
  rw [transaction, h]

theorem transaction_of_error {β : Type} {body : Store → Result β} {e : StoreError}
    (h : body s = (.error e, s')) : s.transaction body = (.error e, s) := by
  rw [transaction, h]

theorem withSessions_of_here {β : Type} (here : s.sessionsLost = false) (gone : StoreError)
    (op : Store → Result β) :
    s.withSessions gone op = op s := by
  rw [withSessions, if_neg (Bool.eq_false_iff.mp here)]

theorem insertRecordsWith_of_ne_nil (some : rs ≠ []) (faults : Faults) (s : Store) :
    s.insertRecordsWith faults rs =
      s.withSessions noReferences fun s ↦ s.transaction fun s ↦ insertFrom faults 0 0 s rs := by
  rw [insertRecordsWith, if_neg (mt List.isEmpty_iff.mp some)]

/-- A batch that meets no fault is taken. -/
theorem insertRecordsWith_of_unmet (here : s.sessionsLost = false)
    (unmet : faults.met 0 rs.length = none) :
    ∃ s', s.insertRecordsWith faults rs = (.ok (rs.countP s.accepts), s') ∧
      s.Gains (rs.filter s.accepts) s' := by
  by_cases none : rs = []
  · subst none
    exact ⟨s, rfl, .nil s⟩
  · obtain ⟨s', added, gains⟩ := insertFrom_of_unmet s 0 unmet
    rw [insertRecordsWith_of_ne_nil none, withSessions_of_here here, transaction_of_ok added,
      Nat.zero_add]
    exact ⟨s', rfl, gains⟩

/-- A batch that meets a fault is refused. -/
theorem insertRecordsWith_of_met {e : StoreError} (here : s.sessionsLost = false) (some : rs ≠ [])
    (met : faults.met 0 rs.length = .some e) : s.insertRecordsWith faults rs = (.error e, s) := by
  obtain ⟨s', refused⟩ := insertFrom_of_met s 0 met
  rw [insertRecordsWith_of_ne_nil some, withSessions_of_here here]
  exact transaction_of_error refused

/-- Without the table of sessions, every batch is refused. -/
theorem insertRecordsWith_of_lost (lost : s.sessionsLost = true) (some : rs ≠ [])
    (faults : Faults) : s.insertRecordsWith faults rs = (.error noReferences, s) := by
  rw [insertRecordsWith_of_ne_nil some, withSessions, if_pos lost]

/-- Whatever comes of a batch, the store gains the records that it accepts or stays as it is. -/
theorem gains_or_stays (faults : Faults) (rs : List Record) (s : Store) :
    s.Gains (rs.filter s.accepts) (s.insertRecordsWith faults rs).2 ∨
      (s.insertRecordsWith faults rs).2 = s := by
  by_cases none : rs = []
  · subst none
    exact .inr rfl
  cases here : s.sessionsLost with
  | true =>
    rw [insertRecordsWith_of_lost here none]
    exact .inr rfl
  | false =>
    cases met : faults.met 0 rs.length with
    | none =>
      obtain ⟨s', added, gains⟩ := insertRecordsWith_of_unmet here met
      rw [added]
      exact .inl gains
    | some e =>
      rw [insertRecordsWith_of_met here none met]
      exact .inr rfl

/-- **A batch of records is taken as far as it is known, or refused as a whole.** For every store,
every batch and all faults:

* without a fault the records that are known are added and counted, and nothing else happens; their
  numbers ascend as long as there is room for them behind the largest one, and are free in any case;
* with a fault at a record or at the end that fault is told and the store stays as it was;
* so it does if the table of sessions is gone; an empty batch does not even ask for it.
-/
theorem batch_is_taken_or_refused (faults : Faults) (rs : List Record) (s : Store) :
    (s.sessionsLost = false → faults.met 0 rs.length = none →
      ∃ s', s.insertRecordsWith faults rs = (.ok (rs.countP (s.Knows ·)), s') ∧
        s.Gains (rs.filter (s.Knows ·)) s') ∧
    (s.sessionsLost = false → rs ≠ [] → ∀ e, faults.met 0 rs.length = some e →
      s.insertRecordsWith faults rs = (.error e, s)) ∧
    (s.sessionsLost = true → rs ≠ [] →
      s.insertRecordsWith faults rs = (.error noReferences, s)) ∧
    s.insertRecordsWith faults [] = (.ok 0, s) := by
  have knows : s.accepts = fun r ↦ decide (s.Knows r) := funext (accepts_eq s)
  refine ⟨fun here unmet ↦ ?_, fun here some e met ↦ insertRecordsWith_of_met here some met,
    fun lost some ↦ insertRecordsWith_of_lost lost some faults, rfl⟩
  have taken := insertRecordsWith_of_unmet here unmet
  rwa [knows] at taken

/-! ### A batch with strangers in it -/

/-- The doorbell rang at a moment. -/
def rungAt (now : Stamp) : Record := ⟨⟨.listener, 1⟩, 1, now, ⟨0⟩, .success, none, none, none⟩

/-- Two rings, and between them a record of a job that has only a listener's number, one of a
listener that is not there, and one of a session that is not there. -/
def strangers : List Record :=
  [rungAt ⟨5000⟩, { rungAt ⟨6000⟩ with target := ⟨.job, 1⟩ },
    { rungAt ⟨7000⟩ with target := ⟨.listener, 2⟩ }, { rungAt ⟨8000⟩ with session := 2 },
    rungAt ⟨9000⟩]

/-- The rings are kept and the strangers are not; with a fault at the last record nothing is. -/
theorem rings_are_taken_without_strangers :
    let s := after [.upsertListener doorbell ⟨0⟩, .begin ⟨0⟩] {}
    (∃ s', s.insertRecords strangers = (.ok 2, s') ∧ s.Gains [rungAt ⟨5000⟩, rungAt ⟨9000⟩] s') ∧
      s.insertRecordsWith ⟨fun i ↦ if i = 4 then some .poisoned else none, none⟩ strangers =
        (.error .poisoned, s) := by
  intro s
  obtain ⟨taken, -, -, -⟩ := batch_is_taken_or_refused {} strangers s
  obtain ⟨-, refused, -, -⟩ :=
    batch_is_taken_or_refused ⟨fun i ↦ if i = 4 then some .poisoned else none, none⟩ strangers s
  have known : strangers.filter (s.Knows ·) = [rungAt ⟨5000⟩, rungAt ⟨9000⟩] := by decide
  refine ⟨?_, refused rfl nofun .poisoned rfl⟩
  obtain ⟨s', added, gains⟩ := taken rfl rfl
  rw [List.countP_eq_length_filter, known] at added
  rw [known] at gains
  exact ⟨s', added, gains⟩

/-! ### Behind the largest number -/

/-- The doorbell rang once, and the record of that has the largest number there is. -/
def full : Store :=
  let s := after [.upsertListener doorbell ⟨0⟩, .begin ⟨0⟩] {}
  { s with listeners := { s.listeners with records := [.ofRecord maxId (rungAt ⟨5000⟩)] } }

/-- The next ring is kept, and its number is below the one that is there. -/
theorem ring_after_the_top :
    ∃ s', full.insertRecords [rungAt ⟨9000⟩] = (.ok 1, s') ∧
      s'.records .listener =
        [.ofRecord maxId (rungAt ⟨5000⟩), .ofRecord 1 (rungAt ⟨9000⟩)] ∧
      ¬ ((s'.records .listener).map (·.id)).Pairwise (· < ·) := by
  have drawn : full.lot.next [maxId] = 1 := by
    rw [Lot.next, if_neg (by decide)]
    show firstFree 1 [maxId] = 1
    rw [firstFree, if_neg (by decide)]
  have kept : (full.append (rungAt ⟨9000⟩)).records .listener =
      [.ofRecord maxId (rungAt ⟨5000⟩), .ofRecord 1 (rungAt ⟨9000⟩)] := by
    have own : (rungAt ⟨9000⟩).target.family = .listener := rfl
    rw [records_append, if_pos own]
    show [_, RecordRow.ofRecord (full.lot.next [maxId]) _] = _
    rw [drawn]
  refine ⟨full.append (rungAt ⟨9000⟩), rfl, kept, ?_⟩
  rw [kept]
  decide

end Supervision.Store
