import Supervision.Proofs.Store.Sessions

/-!
# A store stays sound

Whatever is done to a store, its numbers and keys stay unique, and its records belong to
registrations and sessions that are there (`IsSound.apply`).

What of a registration never changes is its `Seat`: its number, its key and the moment of its first
registration. An operation leaves the seats of a family as they are, adds one under the next number
for a key that has none, or, if it is a sweep, removes some (`seatChange_apply`). So a seat stays
from the registration that created it until a sweep removes it, and registering its key gives its
number as long as it is there.

* `store_stays_sound` — all of this over every history.
-/

namespace Supervision.Store

variable {α : Type} {s : Store}

/-! ### Soundness -/

/-- Numbers of sessions ascend, and both shelves are sound. -/
structure IsSound (s : Store) : Prop where
  sessions : s.HasSessions
  listeners : s.listeners.IsSound (s.sessions.map (·.id))
  jobs : s.jobs.IsSound (s.sessions.map (·.id))

/-- What happens to sessions does not concern registrations and records. -/
theorem shelves_apply (lost : s.sessionsLost = false) {op : Operation}
    (h : op.isOnShelves = false) :
    (op.apply s).listeners = s.listeners ∧ (op.apply s).jobs = s.jobs := by
  cases op with
  | begin now =>
    rw [apply_begin lost]
    split <;> exact ⟨rfl, rfl⟩
  | heartbeat | finish | noteError | finalizeOrphans =>
    rw [apply_of_revises lost rfl]
    exact ⟨rfl, rfl⟩
  | _ => cases h

namespace IsSound

theorem empty : IsSound {} :=
  ⟨hasSessions_empty, Shelf.isSound_empty _, Shelf.isSound_empty _⟩

/-- The shelves change, the sessions do not. -/
theorem of_shelves (h : s.IsSound) {s' : Store} (same : SameSessions s s')
    (listeners : s'.listeners.IsSound (s.sessions.map (·.id)))
    (jobs : s'.jobs.IsSound (s.sessions.map (·.id))) : s'.IsSound where
  sessions := ⟨same.lost.trans h.sessions.here, same.rows ▸ h.sessions.ascend⟩
  listeners := same.rows ▸ listeners
  jobs := same.rows ▸ jobs

theorem append (h : s.IsSound) {r : Record} (accepted : s.accepts r = true) :
    (s.append r).IsSound := by
  obtain ⟨owner, session⟩ := Bool.and_eq_true_iff.mp accepted
  have owner := List.contains_iff_mem.mp owner
  have session := List.contains_iff_mem.mp session
  rw [Store.append]
  cases family : r.target.family with
  | listener =>
    rw [family] at owner
    exact h.of_shelves ⟨rfl, rfl, rfl⟩ (h.listeners.append owner session) h.jobs
  | job =>
    rw [family] at owner
    exact h.of_shelves ⟨rfl, rfl, rfl⟩ h.listeners (h.jobs.append owner session)

/-- **Every operation keeps a store sound.** -/
theorem apply (h : s.IsSound) (op : Operation) : (op.apply s).IsSound := by
  have elsewhere (off : op.isOnShelves = false) : (op.apply s).IsSound := by
    obtain ⟨listeners, jobs⟩ := shelves_apply h.sessions.here off
    have more := sessionIds_subset_apply h.sessions.here op
    exact ⟨h.sessions.apply op, listeners ▸ h.listeners.mono more, jobs ▸ h.jobs.mono more⟩
  match op with
  | .upsertListener l now =>
    exact h.of_shelves ⟨rfl, rfl, rfl⟩ (h.listeners.upsert _ _ _) h.jobs
  | .upsertJob j now => exact h.of_shelves ⟨rfl, rfl, rfl⟩ h.listeners (h.jobs.upsert _ _ _)
  | .insert faults rs => exact insertRecordsWith_keeps (fun _ _ ok h ↦ h.append ok) faults rs h
  | .sweep used now retention limit =>
    refine sweep_keeps (fun _ _ h ↦ ?_) (fun _ h ↦ ?_) (fun _ _ h ↦ ?_) used now retention limit h
    · exact h.of_shelves ⟨rfl, rfl, rfl⟩ (h.listeners.filter_records _) (h.jobs.filter_records _)
    · exact h.of_shelves ⟨rfl, rfl, rfl⟩ (h.listeners.filter_records _) (h.jobs.filter_records _)
    · exact h.of_shelves ⟨rfl, rfl, rfl⟩ (h.listeners.prune _) (h.jobs.prune _)
  | .begin .. | .heartbeat .. | .finish .. | .noteError .. | .finalizeOrphans =>
    exact elsewhere rfl

end IsSound

theorem isSound_after (ops : List Operation) : (after ops {}).IsSound :=
  after_keeps (fun _ op h ↦ h.apply op) ops {} .empty

/-! ### Registering -/

namespace Shelf

variable {sh : Shelf α} {key : RegistrationKey}

/-- A key was registered: its row has the number given, and everything else stayed. -/
structure Registered (sh : Shelf α) (key : RegistrationKey) (info : α) (now id : Int)
    (sh' : Shelf α) : Prop where
  row : ∃ g ∈ sh'.registrations, g.key = key ∧ g.id = id ∧ g.info = info ∧
    g.lastRegisteredAt = now ∧ g.firstRegisteredAt = (sh.find? key).elim now (·.firstRegisteredAt)
  others : sh'.registrations.filter (·.key != key) = sh.registrations.filter (·.key != key)
  records : sh'.records = sh.records

theorem filter_refresh (key : RegistrationKey) (info : α) (now : Int)
    (rows : List (RegistrationRow α)) :
    (rows.map fun g ↦ if g.key == key then { g with info := info, lastRegisteredAt := now }
      else g).filter (·.key != key) = rows.filter (·.key != key) := by
  induction rows with
  | nil => rfl
  | cons g rows ih =>
    rw [List.map_cons, List.filter_cons, List.filter_cons, ih]
    by_cases own : (g.key == key) = true
    · rw [if_pos own, if_neg, if_neg] <;> simpa using own
    · rw [if_neg own]

theorem registered_upsert (key : RegistrationKey) (info : α) (now : Int) (sh : Shelf α) :
    sh.Registered key info now (sh.upsert key info now).1 (sh.upsert key info now).2 := by
  rw [Shelf.upsert]
  cases found : sh.find? key with
  | some g =>
    obtain ⟨there, own⟩ := mem_of_find? found
    refine ⟨⟨{ g with info := info, lastRegisteredAt := now }, ?_, own, rfl, rfl, rfl, ?_⟩, ?_, rfl⟩
    · exact List.mem_map.mpr ⟨g, there, if_pos (beq_iff_eq.mpr own)⟩
    · rw [found]
      rfl
    · exact filter_refresh key info now sh.registrations
  | none =>
    refine ⟨⟨_, List.mem_append_right _ List.mem_cons_self, rfl, rfl, rfl, rfl, ?_⟩, ?_, rfl⟩
    · rw [found]
      rfl
    · rw [List.filter_append, List.filter_singleton, bne_self_eq_false, cond_false,
        List.append_nil]

end Shelf

/-! ### Seats -/

/-- What of a registration never changes. -/
structure Seat where
  id : Int
  key : RegistrationKey
  /-- Moment of its first registration. -/
  since : Int
deriving DecidableEq

/-- The seat of a registration. -/
def RegistrationRow.seat (g : RegistrationRow α) : Seat := ⟨g.id, g.key, g.firstRegisteredAt⟩

/-- The seats of a shelf. -/
def Shelf.seats (sh : Shelf α) : List Seat := sh.registrations.map (·.seat)

/-- The seats of a family. -/
def seats (f : Family) (s : Store) : List Seat :=
  match f with
  | .listener => s.listeners.seats
  | .job => s.jobs.seats

/-- The operation registers a key of a family at a moment, and the number given is `id`. -/
inductive Registers (s : Store) : Family → Operation → RegistrationKey → Int → Int → Prop
  | listener (l : Registration ListenerInfo) (now : Stamp) :
    Registers s .listener (.upsertListener l now) l.key now.micros (s.upsertListener l now).1
  | job (j : Registration JobInfo) (now : Stamp) :
    Registers s .job (.upsertJob j now) j.key now.micros (s.upsertJob j now).1

/-- The operation is a sweep. -/
def Operation.isSweep : Operation → Bool
  | .sweep .. => true
  | _ => false

/-- What an operation can make of the seats of a family. -/
inductive SeatChange (s : Store) (f : Family) (op : Operation) : List Seat → Prop
  /-- They stay. -/
  | stays : SeatChange s f op (s.seats f)
  /-- A key that has none is given one, under the next number. -/
  | adds {key : RegistrationKey} {now : Int}
    (registers : s.Registers f op key now (nextId (s.registrationIds f)))
    (new : ∀ g ∈ s.seats f, g.key ≠ key) :
    SeatChange s f op (s.seats f ++ [⟨nextId (s.registrationIds f), key, now⟩])
  /-- A sweep removes some. -/
  | removes {seats : List Seat} (sweeps : op.isSweep = true) (some : seats.Sublist (s.seats f)) :
    SeatChange s f op seats

/-- Registering a key gives the number of its seat and all seats stay, or it has none and one is
added. -/
theorem Shelf.seats_upsert (key : RegistrationKey) (info : α) (now : Int) (sh : Shelf α) :
    (sh.upsert key info now).2.seats = sh.seats ∧
        (∃ g ∈ sh.seats, g.key = key ∧ g.id = (sh.upsert key info now).1) ∨
      (sh.upsert key info now).2.seats =
          sh.seats ++ [⟨nextId (sh.registrations.map (·.id)), key, now⟩] ∧
        (∀ g ∈ sh.seats, g.key ≠ key) ∧
        (sh.upsert key info now).1 = nextId (sh.registrations.map (·.id)) := by
  rw [Shelf.upsert]
  cases found : sh.find? key with
  | some g =>
    obtain ⟨there, own⟩ := mem_of_find? found
    refine .inl ⟨?_, g.seat, List.mem_map_of_mem there, own, rfl⟩
    exact map_refresh (·.seat) key info now sh.registrations fun _ ↦ rfl
  | none =>
    refine .inr ⟨List.map_append, ?_, rfl⟩
    exact List.forall_mem_map.mpr (find?_eq_none_iff.mp found)

theorem seats_append (f : Family) (r : Record) (s : Store) : (s.append r).seats f = s.seats f := by
  rw [append]
  cases f <;> cases r.target.family <;> rfl

/-- A sweep only removes seats. -/
theorem seats_apply_sublist (f : Family) {op : Operation} (sweeps : op.isSweep = true) :
    ((op.apply s).seats f).Sublist (s.seats f) := by
  cases op with
  | sweep used now retention limit =>
    refine sweep_keeps (P := fun t ↦ (t.seats f).Sublist (s.seats f)) (fun _ _ some ↦ ?_)
      (fun _ some ↦ ?_) (fun horizon t some ↦ ?_) used now retention limit (.refl _)
    · cases f <;> exact some
    · cases f <;> exact some
    · have fewer : ((t.prune horizon).seats f).Sublist (t.seats f) := by
        cases f <;> exact List.filter_sublist.map _
      exact fewer.trans some
  | _ => cases sweeps

/-- **An operation leaves the seats as they are, adds one for a new key, or sweeps some away.** -/
theorem seatChange_apply (lost : s.sessionsLost = false) (f : Family) (op : Operation) :
    s.SeatChange f op ((op.apply s).seats f) := by
  have keeps {t : Store} (same : t.seats f = s.seats f) : s.SeatChange f op (t.seats f) :=
    same ▸ .stays
  have elsewhere (off : op.isOnShelves = false) : s.SeatChange f op ((op.apply s).seats f) := by
    obtain ⟨listeners, jobs⟩ := shelves_apply lost off
    refine keeps ?_
    cases f with
    | listener => exact congrArg Shelf.seats listeners
    | job => exact congrArg Shelf.seats jobs
  match op with
  | .upsertListener l now =>
    cases f with
    | job => exact .stays
    | listener =>
      rcases s.listeners.seats_upsert l.key (.ofInfo l.info) now.micros with
        ⟨stay, -⟩ | ⟨added, new, number⟩
      · exact keeps stay
      · have registers := Registers.listener (s := s) l now
        rw [show (s.upsertListener l now).1 = _ from number] at registers
        show SeatChange s _ _ (s.listeners.upsert ..).2.seats
        rw [added]
        exact .adds registers new
  | .upsertJob j now =>
    cases f with
    | listener => exact .stays
    | job =>
      rcases s.jobs.seats_upsert j.key (.ofInfo j.info) now.micros with
        ⟨stay, -⟩ | ⟨added, new, number⟩
      · exact keeps stay
      · have registers := Registers.job (s := s) j now
        rw [show (s.upsertJob j now).1 = _ from number] at registers
        show SeatChange s _ _ (s.jobs.upsert ..).2.seats
        rw [added]
        exact .adds registers new
  | .insert faults rs =>
    refine keeps (insertRecordsWith_keeps (P := fun t ↦ t.seats f = s.seats f)
      (fun t r _ same ↦ ?_) faults rs rfl)
    exact (seats_append f r t).trans same
  | .sweep .. => exact .removes rfl (seats_apply_sublist f rfl)
  | .begin .. | .heartbeat .. | .finish .. | .noteError .. | .finalizeOrphans =>
    exact elsewhere rfl

/-! ### Seats over a history -/

theorem map_id_seats (f : Family) (s : Store) : (s.seats f).map (·.id) = s.registrationIds f := by
  cases f <;> exact List.map_map

namespace IsSound

theorem nodup_ids (h : s.IsSound) (f : Family) : ((s.seats f).map (·.id)).Nodup := by
  rw [map_id_seats]
  cases f with
  | listener => exact h.listeners.numbers
  | job => exact h.jobs.numbers

theorem nodup_keys (h : s.IsSound) (f : Family) : ((s.seats f).map (·.key)).Nodup := by
  cases f with
  | listener =>
    have keys : (s.seats .listener).map (·.key) = s.listeners.registrations.map (·.key) :=
      List.map_map
    exact keys ▸ h.listeners.keys
  | job =>
    have keys : (s.seats .job).map (·.key) = s.jobs.registrations.map (·.key) := List.map_map
    exact keys ▸ h.jobs.keys

end IsSound

variable {f : Family} {op : Operation} {g : Seat}

/-- A seat stays unless a sweep removes it. -/
theorem seat_mem_apply (lost : s.sessionsLost = false) (mem : g ∈ s.seats f)
    (spared : op.isSweep = true → g ∈ (op.apply s).seats f) : g ∈ (op.apply s).seats f := by
  have change := seatChange_apply lost f op
  revert spared change
  generalize (op.apply s).seats f = after
  intro spared change
  cases change with
  | stays => exact mem
  | adds registers new => exact List.mem_append_left _ mem
  | removes sweeps some => exact spared sweeps

/-- A key that was registered has a seat, under the number given. -/
theorem Registers.exists_seat {key : RegistrationKey} {now id : Int}
    (h : s.Registers f op key now id) : ∃ g ∈ (op.apply s).seats f, g.key = key ∧ g.id = id := by
  cases h with
  | listener l now =>
    obtain ⟨g, there, own, number, -⟩ := (s.listeners.registered_upsert l.key _ now.micros).row
    exact ⟨g.seat, List.mem_map_of_mem there, own, number⟩
  | job j now =>
    obtain ⟨g, there, own, number, -⟩ := (s.jobs.registered_upsert j.key _ now.micros).row
    exact ⟨g.seat, List.mem_map_of_mem there, own, number⟩

theorem Registers.isSweep {key : RegistrationKey} {now id : Int}
    (h : s.Registers f op key now id) : op.isSweep = false := by
  cases h <;> rfl

/-- Registering a key that has a seat gives the number of that seat. -/
theorem Registers.eq_id (sound : s.IsSound) {now id : Int} (h : s.Registers f op g.key now id)
    (mem : g ∈ s.seats f) : id = g.id := by
  obtain ⟨g', there, own, number⟩ := h.exists_seat
  have stays : g ∈ (op.apply s).seats f :=
    seat_mem_apply sound.sessions.here mem fun sweeps ↦
      absurd (h.isSweep.symm.trans sweeps) Bool.noConfusion
  have same := List.inj_on_of_nodup_map ((sound.apply op).nodup_keys f) there stays own
  rw [← number, same]

/-- No sweep among the operations removes the registration with this number. -/
def Spares (f : Family) (id : Int) : Store → List Operation → Prop
  | _, [] => True
  | s, op :: ops =>
    (op.isSweep = true → id ∈ s.registrationIds f → id ∈ (op.apply s).registrationIds f) ∧
      Spares f id (op.apply s) ops

/-- A seat that every sweep spares is still there. -/
theorem seat_mem_after (sound : s.IsSound) {ops : List Operation} (mem : g ∈ s.seats f)
    (spares : Spares f g.id s ops) : g ∈ (s.after ops).seats f := by
  induction ops generalizing s with
  | nil => exact mem
  | cons op ops ih =>
    refine ih (sound.apply op) ?_ spares.2
    refine seat_mem_apply sound.sessions.here mem fun sweeps ↦ ?_
    have before : g.id ∈ s.registrationIds f := map_id_seats f s ▸ List.mem_map_of_mem mem
    have after := spares.1 sweeps before
    rw [← map_id_seats] at after
    obtain ⟨g', there, number⟩ := List.mem_map.mp after
    -- The number is still there, and before the sweep it was the number of this seat.
    have old := (seats_apply_sublist f sweeps).mem there
    rwa [← List.inj_on_of_nodup_map (sound.nodup_ids f) old mem number]

/-- A seat was created in this history by the registration of its key at the moment it tells, when
the key had none, and has been there since. -/
def HasOrigin (f : Family) (ops : List Operation) (g : Seat) : Prop :=
  ∃ before op later, ops = before ++ op :: later ∧
    (after before {}).Registers f op g.key g.since g.id ∧
    (∀ x ∈ (after before {}).seats f, x.key ≠ g.key) ∧
    ∀ m, m <+: later → g ∈ (after (before ++ op :: m) {}).seats f

theorem HasOrigin.concat {ops : List Operation} (h : HasOrigin f ops g)
    (mem : g ∈ (after (ops ++ [op]) {}).seats f) : HasOrigin f (ops ++ [op]) g := by
  obtain ⟨before, registers, later, rfl, created, new, stays⟩ := h
  refine ⟨before, registers, later ++ [op], ?_, created, new, fun m part ↦ ?_⟩
  · rw [List.append_assoc, List.cons_append]
  · rcases List.prefix_concat_iff.mp part with rfl | part
    · rwa [List.append_assoc, List.cons_append] at mem
    · exact stays m part

theorem hasOrigin_of_mem (ops : List Operation) (mem : g ∈ (after ops {}).seats f) :
    HasOrigin f ops g := by
  induction ops using List.reverseRecOn with
  | nil => cases f <;> exact absurd mem List.not_mem_nil
  | append_singleton ops op ih =>
    by_cases old : g ∈ (after ops {}).seats f
    · exact (ih old).concat mem
    · have there := mem
      have change := seatChange_apply (hasSessions_after ops).here f op
      rw [← after_concat] at change
      generalize (after (ops ++ [op]) {}).seats f = seats at mem change
      cases change with
      | stays => exact absurd mem old
      | removes sweeps some => exact absurd (some.mem mem) old
      | adds registers new =>
        obtain rfl := List.mem_singleton.mp ((List.mem_append.mp mem).resolve_left old)
        refine ⟨ops, op, [], rfl, registers, new, fun m part ↦ ?_⟩
        rw [List.prefix_nil.mp part]
        exact there

/-- **A store stays sound.** After every history

* numbers and keys are unique, and records belong to registrations and sessions that are there;
* registering a key gives the number of its row, stores what was told and when, keeps the moment of
  the first registration, and changes nothing else;
* every registration was created by the registration of its key at the moment of its first
  registration, and has been there since;
* registering a key again gives the same number, unless a sweep has removed it meanwhile.
-/
theorem store_stays_sound (ops : List Operation) :
    let s := after ops {}
    s.IsSound ∧
      (∀ (l : Registration ListenerInfo) (now : Stamp), ∃ sh,
        (s.upsertListener l now).2 = { s with listeners := sh } ∧
          s.listeners.Registered l.key (.ofInfo l.info) now.micros (s.upsertListener l now).1 sh) ∧
      (∀ (j : Registration JobInfo) (now : Stamp), ∃ sh,
        (s.upsertJob j now).2 = { s with jobs := sh } ∧
          s.jobs.Registered j.key (.ofInfo j.info) now.micros (s.upsertJob j now).1 sh) ∧
      (∀ f, ∀ g ∈ s.seats f, HasOrigin f ops g) ∧
      ∀ f op key now id more op' now' id', s.Registers f op key now id →
        Spares f id (op.apply s) more →
        ((op.apply s).after more).Registers f op' key now' id' → id' = id := by
  have sound := isSound_after ops
  refine ⟨sound, fun l now ↦ ⟨_, rfl, Shelf.registered_upsert ..⟩,
    fun j now ↦ ⟨_, rfl, Shelf.registered_upsert ..⟩, fun f g mem ↦ hasOrigin_of_mem ops mem, ?_⟩
  intro f op key now id more op' now' id' first spares again
  obtain ⟨g, there, rfl, rfl⟩ := first.exists_seat
  have still := seat_mem_after (sound.apply op) there spares
  exact again.eq_id (after_keeps (fun _ op h ↦ h.apply op) more _ (sound.apply op)) still

/-! ### A registration that is in use -/

/-- A listener. -/
def doorbell : Registration ListenerInfo where
  key := ⟨"home", 0, "doorbell", ""⟩
  info := default

/-- The doorbell rings in a session, and then everything before that is swept. -/
def visit : List Operation :=
  [.begin ⟨0⟩, .insert {} [⟨⟨.listener, 1⟩, 1, ⟨5000⟩, ⟨0⟩, .success, none, none, none⟩],
    .sweep (fun _ ↦ 0) ⟨4000⟩ ⟨0⟩ 0]

/-- Its record spares the doorbell, so it gets its number again. -/
theorem doorbell_keeps_its_number :
    let s := (Operation.upsertListener doorbell ⟨0⟩).apply {}
    Spares .listener 1 s visit ∧ ((s.after visit).upsertListener doorbell ⟨9000⟩).1 = 1 := by
  intro s
  have spares : Spares .listener 1 s visit := by
    refine ⟨nofun, nofun, fun _ _ ↦ ?_, trivial⟩
    rw [apply_sweep_of_le rfl (Nat.le_refl 0)]
    decide
  refine ⟨spares, ?_⟩
  obtain ⟨-, -, -, -, again⟩ := store_stays_sound []
  exact again .listener _ _ _ _ visit _ _ _ (.listener doorbell ⟨0⟩) spares
    (.listener doorbell ⟨9000⟩)

end Supervision.Store
