import Supervision.Proofs.Supervisor.Deadline

/-!
# What the chronicle says of cycles

Whoever has ended is on record as ended, broken or given up (`Reaches.recordsEnds`), so the order in
which cycles end can be told from the chronicle alone. Cycles are told to end by the host, and by
restarts as long as the shutdown has not begun; they are given up by the host only
(`Change.leavesAlone_of_other`).
-/

namespace Supervision

/-- It says that a cycle has ended: in good order, with a panic, or because it was given up. -/
def Happening.Ends (i : Nat) : Happening → Prop
  | .ended (.cycle k) | .broke (.cycle k) _ | .flinched k _ _ | .aborted k => k = i
  | _ => False

/-- The cycle that was told to end. -/
def Entry.told? (x : Entry) : Option Nat :=
  match x.what with
  | .cancelled i => some i
  | _ => none

/-- The cycle that was given up. -/
def Entry.givenUp? (x : Entry) : Option Nat :=
  match x.what with
  | .aborted i => some i
  | _ => none

namespace State

variable {S : Setup} {s t : State} {i : Nat} {c : Cycle}

/-- The cycles that were told to end, in order. -/
def told (s : State) : List Nat := s.view Entry.told?

/-- The cycles that were given up, in order. -/
def givenUp (s : State) : List Nat := s.view Entry.givenUp?

/-- It is on record that cycle `i` has ended. -/
def HasEnded (i : Nat) (s : State) : Prop := ∃ x ∈ s.chronicle, x.what.Ends i

/-- Every cycle that has ended is on record. -/
def RecordsEnds (s : State) : Prop :=
  ∀ (i : Nat) (c : Cycle), s.cycles[i]? = some c → c.stage = .finished → s.HasEnded i

theorem HasEnded.grow (h : s.HasEnded i) (grows : Grows s t) : t.HasEnded i := by
  obtain ⟨x, hx, ends⟩ := h
  obtain ⟨more, chronicle⟩ := grows.chronicle
  exact ⟨x, by rw [chronicle]; exact Array.mem_append_left _ hx, ends⟩

theorem IsAborted.hasEnded (h : s.IsAborted i) : s.HasEnded i := by
  obtain ⟨x, hx, aborted⟩ := h
  exact ⟨x, hx, by rw [aborted]; rfl⟩

/-! ### Ends -/

theorem hasEnded_endCycle (i : Nat) (s : State) : (s.endCycle i).HasEnded i :=
  ⟨_, Array.mem_push_self, rfl⟩

/-- A cycle that ends in a hook ends in good order. -/
theorem HookStep.hasEnded {place : Nat} {hook : Hook} {acts : List Act} {wake : Option Nat}
    {exit : Exit} (h : HookStep S i place hook acts exit s t) (hc : s.cycles[i]? = some c)
    (inside : c.stage = .inside hook acts wake exit) {c' : Cycle} (hc' : t.cycles[i]? = some c')
    (isOver : c'.stage = .finished) : t.HasEnded i := by
  -- Whatever leaves the cycle in a hook does not end it.
  have stays : ∀ {hook acts wake exit},
      t.cycles[i]? = some { c with stage := .inside hook acts wake exit } → t.HasEnded i := by
    intro _ _ _ _ there
    rw [hc'] at there
    cases there
    cases isOver
  cases h with
  | rests =>
    rw [hc] at hc'
    cases hc'
    rw [inside] at isOver
    cases isOver
  | @acts a u left wake act first fewer =>
    exact stays (getElem?_setCycle_self _ (act.cycles ▸ hc))
  | @serves u first hm =>
    have hu : u.cycles[i]? = some c := by
      rw [cycles_of_mark hm]
      exact hc
    obtain ⟨b, -, called⟩ := getElem?_callHook_self (S := S) place .serve .clean hu
    exact stays called
  | stops result before more =>
    obtain ⟨b, -, called⟩ := getElem?_callHook_self (S := S) place .stop before
      (s := s.enter (.returned i hook result)) hc
    exact stays called
  | settles result last => exact hasEnded_endCycle i _

/-- **A cycle that ends is on record.** -/
theorem CycleStep.hasEnded (h : CycleStep S i c s t) (hc : s.cycles[i]? = some c) {c' : Cycle}
    (hc' : t.cycles[i]? = some c') (isOver : c'.stage = .finished) :
    c.stage = .finished ∨ t.HasEnded i := by
  have moves : ∀ {stage : CycleStage}, t.cycles[i]? = some { c with stage := stage } →
      stage = .finished := by
    intro stage there
    rw [hc'] at there
    cases there
    exact isOver
  cases h with
  | rests h => exact .inl h
  | turnsAway fresh hm => exact .inr (hasEnded_endCycle i _)
  | @begins u fresh hm =>
    have hu : u.cycles[i]? = some c := by rw [cycles_of_mark hm, hc]
    cases moves (getElem?_setCycle_self _ hu)
  | obeys gated told => exact .inr (hasEnded_endCycle i _)
  | breaks | flinches => exact .inr ⟨_, Array.mem_push_self, rfl⟩
  | waits looks going => cases moves (getElem?_setCycle_self _ (getElem?_noteSeen hc))
  | starts looks ready =>
    obtain ⟨b, -, called⟩ := getElem?_callHook_self (S := S) c.place .start .clean
      (getElem?_noteSeen hc)
    cases moves called
  | meets looks ends => exact .inr (hasEnded_endCycle i _)
  | fails looks ends => exact .inr (hasEnded_endCycle i _)
  | hooks inside step => exact .inr (step.hasEnded hc inside hc' isOver)

end State

section Run

variable {S : Setup} {admits : Deed → Prop} {who : Option Task} {s s' : State}

theorem Changes.grows (h : Changes S admits who s s') : State.Grows s s' := by
  induction h with
  | refl => exact .refl s
  | tail _ last ih => exact ih.trans last.grows

/-- Others end no cycle unless they give it up, and that is on record. -/
theorem Changes.hasEnded (h : Changes S admits who s s') {i : Nat} (other : who ≠ some (.cycle i))
    (hs : s.RecordsEnds) {c : Cycle} (hc : s'.cycles[i]? = some c) (isOver : c.stage = .finished) :
    s'.HasEnded i := by
  rcases h.cycle_of_other other hc with ⟨b, hb, -, same⟩ | ⟨-, fresh⟩ | ⟨-, aborted⟩
  · exact (hs i b hb (same ▸ isOver)).grow h.grows
  · rw [fresh] at isOver
    cases isOver
  · exact aborted.hasEnded

theorem Step.recordsEnds (h : Step S admits s s') (ho : s.IsOrderly) (hs : s.RecordsEnds) :
    s'.RecordsEnds := by
  intro i c' hc' isOver
  rcases h.turn_or_changes ho (· = .cycle i) with ⟨t, rfl, rfl⟩ | ⟨who, other, chain⟩
  · cases hc : s.cycles[i]? with
    | none =>
      rw [State.step_cycle_of_none hc, hc] at hc'
      cases hc'
    | some c =>
      rcases (State.cycleStep_step (S := S) hc).hasEnded hc hc' isOver with before | ended
      · exact (hs i c hc before).grow (State.grows_step S (.cycle i) s)
      · exact ended
  · exact chain.hasEnded (other _ rfl) hs hc' isOver

/-- **Every cycle that has ended is on record**, at every moment of every run. -/
theorem Reaches.recordsEnds {bus : Bus} {recorder : Option Recorder} {now : Nat}
    (run : Reaches S admits (State.initial S bus recorder now) s) : s.RecordsEnds := by
  have start : (State.initial S bus recorder now).RecordsEnds :=
    fun _ _ hc ↦ absurd hc (by simp [State.initial])
  exact (run.keeps (P := fun s ↦ s.IsOrderly ∧ s.RecordsEnds)
    (fun hP step ↦ ⟨step.isOrderly hP.1, step.recordsEnds hP.1 hP.2⟩)
    ⟨State.isOrderly_initial S bus recorder now, start⟩).2

/-! ### Who is told and who is given up -/

namespace State

/-- From one state to the other, nobody is told to end and nobody is given up. -/
structure LeavesAlone (s t : State) : Prop where
  told : t.told = s.told
  givenUp : t.givenUp = s.givenUp

theorem LeavesAlone.trans {t u : State} (h : LeavesAlone s t) (h' : LeavesAlone t u) :
    LeavesAlone s u := ⟨h'.told.trans h.told, h'.givenUp.trans h.givenUp⟩

theorem LeavesAlone.of_chronicle {t : State} (h : t.chronicle = s.chronicle) : LeavesAlone s t :=
  ⟨view_of_chronicle h, view_of_chronicle h⟩

/-- Whoever is neither the host nor a restart. -/
theorem Enters.leavesAlone {t : State} (h : Enters (s.IsEntryOf who) s t)
    (host : who ≠ some .host) (other : ∀ j, who ≠ some (.restart j)) : LeavesAlone s t := by
  constructor
  · refine h.view_eq fun x hx ↦ ?_
    have own := hx.2
    unfold Entry.told?
    split
    · rename_i i cancelled
      rw [cancelled] at own
      exact own.elim (fun own ↦ absurd own host) fun ⟨j, own⟩ ↦ absurd own (other j)
    · rfl
  · refine h.view_eq fun x hx ↦ ?_
    have own := hx.2
    unfold Entry.givenUp?
    split
    · rename_i i aborted
      rw [aborted] at own
      exact absurd own host
    · rfl

theorem leavesAlone_enter {h : Happening} (told : ∀ i, h ≠ .cancelled i)
    (given : ∀ i, h ≠ .aborted i) : LeavesAlone s (s.enter h) := by
  have entered : Enters (fun x ↦ x.what = h) s (s.enter h) := .enter (.of_eq rfl) rfl
  refine ⟨entered.view_eq fun x hx ↦ ?_, entered.view_eq fun x hx ↦ ?_⟩
  · unfold Entry.told?
    split
    · exact absurd (hx.symm.trans ‹_›) (told _)
    · rfl
  · unfold Entry.givenUp?
    split
    · exact absurd (hx.symm.trans ‹_›) (given _)
    · rfl

theorem leavesAlone_publish (e : Event) (s : State) : LeavesAlone s (s.publish e) := by
  have sent : LeavesAlone s { s with ensemble := s.ensemble.publish [e] } := .of_chronicle rfl
  exact sent.trans (leavesAlone_enter (h := .published e) nofun nofun)

theorem Enters.leavesAlone_of_none {t : State} (h : Enters (s.IsEntryOf none) s t) :
    LeavesAlone s t :=
  h.leavesAlone (by nofun) (by nofun)

theorem leavesAlone_request (c : Cause) (s : State) : LeavesAlone s (s.request c).2 :=
  (enters_request c s).leavesAlone_of_none

theorem leavesAlone_startCycle (place : Nat) (s : State) : LeavesAlone s (s.startCycle place) := by
  have put : LeavesAlone s ({ s with cycles := s.cycles.push { place := place } }.modifyMember place
      fun m ↦ { m with run := some s.cycles.size }) := .of_chronicle rfl
  exact put.trans (leavesAlone_enter (h := .started (.cycle s.cycles.size)) nofun nofun)

theorem leavesAlone_endRestart (i : Nat) (s : State) : LeavesAlone s (s.endRestart i) := by
  have put : LeavesAlone s (s.setRestart i .finished) := .of_chronicle rfl
  exact put.trans (leavesAlone_enter (h := .ended (.restart i)) nofun nofun)

end State

/-- Once the shutdown has begun, a restart leaves cycles alone. -/
theorem Change.leavesAlone_of_restart {j : Nat} (h : Change S admits (some (.restart j)) s s')
    (asked : s.isRequested = true) : State.LeavesAlone s s' := by
  cases h with
  | note what own =>
    exact State.leavesAlone_enter (fun i told ↦ by subst told; exact own)
      fun i given ↦ by subst given; exact own
  | report e report own => exact State.leavesAlone_publish e s
  | request c => exact State.leavesAlone_request c s
  | mark hm own => exact (State.enters_mark hm).leavesAlone_of_none
  | @release _ place _ stage hr waits due =>
    have ends : s.release j place =
        (s.setAccount place (s.account place).release).endRestart j := by
      unfold State.release
      exact if_pos asked
    have freed : State.LeavesAlone s (s.setAccount place (s.account place).release) :=
      .of_chronicle rfl
    rw [ends]
    exact freed.trans (State.leavesAlone_endRestart j _)
  | respawn hr gone =>
    unfold State.respawn
    split
    · exact State.leavesAlone_endRestart j s
    · exact (State.leavesAlone_startCycle _ s).trans (State.leavesAlone_endRestart j _)
  | _ => exact .of_chronicle rfl

/-- **Once the shutdown has begun, only the host tells cycles to end or gives them up.** -/
theorem Change.leavesAlone_of_other (h : Change S admits who s s') (other : who ≠ some .host)
    (asked : s.isRequested = true) : State.LeavesAlone s s' := by
  by_cases restart : ∃ j, who = some (.restart j)
  · obtain ⟨j, rfl⟩ := restart
    exact h.leavesAlone_of_restart asked
  · rcases h.enters_or with own | ⟨e, -, rfl⟩
    · exact own.leavesAlone other fun j same ↦ restart ⟨j, same⟩
    · exact State.leavesAlone_publish e s

end Run

end Supervision
