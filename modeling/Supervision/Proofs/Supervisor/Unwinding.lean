import Supervision.Proofs.Supervisor.Ending
import Supervision.Proofs.Supervisor.Places
import Supervision.Proofs.Supervisor.Recorded

/-!
# A stop takes cycles in reverse start order

A stop takes the cycles that are current when it begins, from the last place to the first. It tells
one to end, waits until it has ended, and goes on to the next; at its deadline it waits no more, and
gives up whoever goes on. So a cycle is told to end only after those of all places behind have ended
or were given up (`State.TellsAfter`), which is on record; and since a resource of an accepted table
stands behind all that it depends on, nobody loses what he depends on before that.

This rests on the record of who has ended (`Reaches.recordsEnds`), on nobody but the host telling
cycles to end once the shutdown has begun, and on time that passes only while nobody can go on. How
long a cycle takes to end, and whether it does, is left open.

* `State.stopFrom_drains` — one step of a stop.
* `Step.isAfter` — what every step keeps, of whoever it is, from the beginning of a stop to its end.
* `stop_unwinds` — the order, the deadline and what is reported in the end.
* `pier_unwinds` — a stop that gives up the last of two cycles.
-/

namespace Supervision

/-! ### The current cycles -/

namespace State

variable {S : Setup} {d s t : State} {p q c e : Nat} {After : Nat → Nat → Prop}

/-- The current cycles stand in reverse start order. -/
theorem pairwise_currentCycles (d : State) :
    d.currentCycles.Pairwise fun x y ↦ y.1 < x.1 := by
  refine List.pairwise_reverse.2 (List.pairwise_lt_range.filterMap _ ?_)
  intro p q before x hx y hy
  obtain ⟨-, -, rfl⟩ := Option.map_eq_some_iff.1 hx
  obtain ⟨-, -, rfl⟩ := Option.map_eq_some_iff.1 hy
  exact before

/-- No cycle is current twice. -/
theorem nodup_currentCycles (fits : d.Fits S) : (d.currentCycles.map (·.2)).Nodup := by
  refine List.pairwise_map.2 ((pairwise_currentCycles d).imp_of_mem ?_)
  intro x y hx hy before same
  obtain ⟨c, hc, px⟩ := fits.runs _ _ (mem_currentCycles.1 hx)
  obtain ⟨c', hc', py⟩ := fits.runs _ _ (mem_currentCycles.1 hy)
  rw [same, hc'] at hc
  cases hc
  exact Nat.ne_of_lt before (py.symm.trans px)

theorem snd_ne_of_mem_behind {done rest : List (Nat × Nat)} (fits : d.Fits S)
    (split : d.currentCycles = done ++ (p, c) :: rest) : ∀ x ∈ rest, x.2 ≠ c := by
  have distinct := nodup_currentCycles fits
  rw [split, List.map_append, List.map_cons] at distinct
  intro x hx same
  have twice : x.2 ∈ rest.map (·.2) := List.mem_map_of_mem hx
  exact (List.nodup_cons.1 (List.nodup_append.1 distinct).2.1).1 (same ▸ twice)

/-- Those of them that go on. -/
def goingOn (s : State) (left : List (Nat × Nat)) : List (Nat × Nat) :=
  left.filter fun x ↦ !s.cycleIsOver x.2

section GoingOn

variable {left : List (Nat × Nat)} {x : Nat × Nat}

theorem goingOn_congr (same : ∀ x ∈ left, t.cycleIsOver x.2 = s.cycleIsOver x.2) :
    t.goingOn left = s.goingOn left :=
  List.filter_congr fun x hx ↦ by rw [same x hx]

theorem goingOn_cons_of_over (isOver : s.cycleIsOver x.2 = true) :
    s.goingOn (x :: left) = s.goingOn left :=
  List.filter_cons_of_neg (by rw [isOver]; nofun)

theorem goingOn_cons_of_going (going : s.cycleIsOver x.2 = false) :
    s.goingOn (x :: left) = x :: s.goingOn left :=
  List.filter_cons_of_pos (by rw [going]; rfl)

/-- Those that are over do not count. -/
theorem goingOn_append_of_over {done : List (Nat × Nat)}
    (isOver : ∀ x ∈ done, s.cycleIsOver x.2 = true) :
    s.goingOn (done ++ left) = s.goingOn left := by
  have none : done.filter (fun x ↦ !s.cycleIsOver x.2) = [] :=
    List.filter_eq_nil_iff.2 fun x hx ↦ by rw [isOver x hx]; nofun
  unfold goingOn
  rw [List.filter_append, none, List.nil_append]

end GoingOn

/-! ### In which order cycles are told to end -/

/-- From `d` on, when a cycle that was current in `d` is told to end, it is on record that those of
the resources that it comes after have ended. -/
def TellsAfter (s d : State) (After : Nat → Nat → Prop) : Prop :=
  ∀ (k : Nat) (x : Entry) (p c q e : Nat), d.chronicle.size ≤ k → s.chronicle[k]? = some x →
    x.what = .cancelled c → d.run? p = some c → d.run? q = some e → After p q →
    ∃ (j : Nat) (y : Entry), j < k ∧ s.chronicle[j]? = some y ∧ y.what.Ends e

theorem tellsAfter_self (d : State) (After : Nat → Nat → Prop) : d.TellsAfter d After := by
  intro k x p c q e late hx
  exact absurd (Array.getElem?_eq_some_iff.1 hx).1 (Nat.not_lt_of_le late)

namespace TellsAfter

theorem mono {Fewer : Nat → Nat → Prop} (h : s.TellsAfter d After)
    (imp : ∀ p q, Fewer p q → After p q) : s.TellsAfter d Fewer :=
  fun k x p c q e late hx told hp hq after ↦ h k x p c q e late hx told hp hq (imp p q after)

/-- Where nobody is told to end, the order is kept. -/
theorem grow (h : s.TellsAfter d After) (grows : Grows s t) (told : t.told = s.told) :
    t.TellsAfter d After := by
  intro k x p c q e late hx what hp hq after
  obtain ⟨more, chronicle⟩ := grows.chronicle
  have nobody : more.toList.filterMap Entry.told? = [] := by
    unfold State.told view at told
    rw [chronicle, Array.toList_append, List.filterMap_append] at told
    exact List.append_cancel_left (told.trans (List.append_nil _).symm)
  rw [chronicle] at hx
  by_cases old : k < s.chronicle.size
  · rw [Array.getElem?_append_left old] at hx
    obtain ⟨j, y, lt, hy, ends⟩ := h k x p c q e late hx what hp hq after
    exact ⟨j, y, lt, grows.getElem? hy, ends⟩
  · rw [Array.getElem?_append_right (Nat.le_of_not_lt old)] at hx
    have silent := List.filterMap_eq_nil_iff.1 nobody x
      (Array.mem_toList_iff.2 (Array.mem_of_getElem? hx))
    unfold Entry.told? at silent
    rw [what] at silent
    cases silent

/-- A cycle is told to end once all that it comes after are on record as ended. -/
theorem tell (h : s.TellsAfter d After)
    (ended : ∀ p q e, d.run? p = some c → d.run? q = some e → After p q → s.HasEnded e) :
    (s.cancelCycle c).TellsAfter d After := by
  intro k x p i q e late hx what hp hq after
  have told : Enters (fun x ↦ x.what = .cancelled c) s (s.cancelCycle c) :=
    Enters.enter (.of_eq rfl) rfl
  have grows := grows_cancelCycle c s
  rcases told.getElem?_cases hx with old | ⟨new, said⟩
  · obtain ⟨j, y, lt, hy, ends⟩ := h k x p i q e late old what hp hq after
    exact ⟨j, y, lt, grows.getElem? hy, ends⟩
  · rw [said] at what
    cases what
    obtain ⟨y, hy, ends⟩ := ended p q e hp hq after
    obtain ⟨j, hj⟩ := Array.getElem?_of_mem hy
    exact ⟨j, y, Nat.lt_of_lt_of_le (Array.getElem?_eq_some_iff.1 hj).1 new, grows.getElem? hj,
      ends⟩

end TellsAfter

/-! ### One step of a stop -/

/-- How far a stop that began in `d` has come: it is done with some of the cycles, it has told some
to end and has given some up. -/
structure Drains (s d : State) (done heard late : List (Nat × Nat)) : Prop where
  isOver : ∀ x ∈ done, s.cycleIsOver x.2 = true
  ended : ∀ x ∈ done, s.HasEnded x.2
  told : s.told = d.told ++ heard.map (·.2)
  givenUp : s.givenUp = d.givenUp ++ late.map (·.2)
  inReverse : s.TellsAfter d fun p q ↦ p < q

namespace Drains

variable {done heard late rest : List (Nat × Nat)} {x : Nat × Nat}

theorem start (alone : LeavesAlone d s) (grows : Grows d s) : s.Drains d [] [] [] where
  isOver := nofun
  ended := nofun
  told := alone.told.trans (List.append_nil _).symm
  givenUp := alone.givenUp.trans (List.append_nil _).symm
  inReverse := (tellsAfter_self d _).grow grows alone.told

theorem keep (h : s.Drains d done heard late) (alone : LeavesAlone s t) (grows : Grows s t)
    (isOver : ∀ i, s.cycleIsOver i = true → t.cycleIsOver i = true) :
    t.Drains d done heard late where
  isOver x hx := isOver x.2 (h.isOver x hx)
  ended x hx := (h.ended x hx).grow grows
  told := alone.told.trans h.told
  givenUp := alone.givenUp.trans h.givenUp
  inReverse := h.inReverse.grow grows alone.told

/-- It is done with a cycle that is over. -/
theorem skip (h : s.Drains d done heard late) (isOver : s.cycleIsOver x.2 = true)
    (ended : s.HasEnded x.2) : s.Drains d (done ++ [x]) heard late where
  __ := h
  isOver y hy := by
    rcases List.mem_append.1 hy with hy | hy
    · exact h.isOver y hy
    · rw [List.mem_singleton.1 hy]
      exact isOver
  ended y hy := by
    rcases List.mem_append.1 hy with hy | hy
    · exact h.ended y hy
    · rw [List.mem_singleton.1 hy]
      exact ended

/-- Of the cycles that are left, it has told none to end. -/
theorem untold (h : s.Drains d done done late) :
    s.Drains d done (done ++ if false then rest.take 1 else []) late := by
  rw [if_neg Bool.false_ne_true, List.append_nil]
  exact h

/-- It tells the next cycle to end: the cycles of all places behind are those it is done with. -/
theorem tell (h : s.Drains d done done late) (fits : d.Fits S)
    (split : d.currentCycles = done ++ (p, c) :: rest) :
    (s.cancelCycle c).Drains d done (done ++ [(p, c)]) late where
  isOver x hx := (cycleIsOver_cancelCycle c x.2).trans (h.isOver x hx)
  ended x hx := (h.ended x hx).grow (grows_cancelCycle c s)
  told := by
    have told := view_enter Entry.told? (.cancelled c)
      { s with cycles := s.cycles.modify c fun c ↦ { c with cancelled := true } }
    rw [List.map_append, ← List.append_assoc, ← h.told]
    exact told
  givenUp := by
    have given := view_enter Entry.givenUp? (.cancelled c)
      { s with cycles := s.cycles.modify c fun c ↦ { c with cancelled := true } }
    exact (given.trans (List.append_nil _)).trans h.givenUp
  inReverse := by
    refine h.inReverse.tell fun p' q e hp hq after ↦ ?_
    have current : d.run? p = some c := mem_currentCycles.1 (by rw [split]; simp)
    obtain ⟨b, hb, rfl⟩ := fits.runs _ _ current
    obtain ⟨b', hb', rfl⟩ := fits.runs _ _ hp
    rw [hb] at hb'
    cases hb'
    have order := pairwise_currentCycles d
    have mem := mem_currentCycles.2 hq
    rw [split] at order mem
    have behind := (List.pairwise_cons.1 (List.pairwise_append.1 order).2.1).1
    rcases List.mem_append.1 mem with mem | mem
    · exact h.ended _ mem
    · rcases List.mem_cons.1 mem with same | mem
      · cases same
        exact absurd after (Nat.lt_irrefl _)
      · exact absurd after (Nat.lt_asymm (behind _ mem))

/-- It gives a cycle up. -/
theorem abort (h : s.Drains d done heard late) (p c : Nat) :
    (s.abortCycle c).Drains d (done ++ [(p, c)]) heard (late ++ [(p, c)]) := by
  have grows := grows_abortCycle c s
  have told : (s.abortCycle c).told = s.told :=
    (view_enter Entry.told? (.aborted c) (s.setCycle c .finished)).trans (List.append_nil _)
  have given : (s.abortCycle c).givenUp = s.givenUp ++ [c] :=
    view_enter Entry.givenUp? (.aborted c) (s.setCycle c .finished)
  have isOver : ∀ i, s.cycleIsOver i = true → (s.abortCycle c).cycleIsOver i = true := by
    intro i hi
    by_cases same : i = c
    · rw [same]
      exact cycleIsOver_abortCycle_self c
    · exact (cycleIsOver_abortCycle_of_ne same).trans hi
  have gone : (s.abortCycle c).Drains d done heard (late ++ [(p, c)]) := {
    isOver := fun x hx ↦ isOver x.2 (h.isOver x hx)
    ended := fun x hx ↦ (h.ended x hx).grow grows
    told := told.trans h.told
    givenUp := by rw [given, h.givenUp, List.map_append, List.append_assoc]; rfl
    inReverse := h.inReverse.grow grows told }
  exact gone.skip (cycleIsOver_abortCycle_self c) ⟨_, Array.mem_push_self, rfl⟩

end Drains

/-- What one step of a stop that began in `d` comes to, from `s` on, with some cycles left: it waits
for one of them, after all in front of it; or it ends, and has given up those that go on. -/
inductive DrainStep (S : Setup) (d : State) (run : Shutting) (deadline : Nat)
    (late left : List (Nat × Nat)) (s : State) : State → Prop where
  | waits {t : State} (done rest : List (Nat × Nat)) (x : Nat × Nat) (early : s.now < deadline)
      (now : t.now = s.now) (host : t.host = .stopping run deadline (x :: rest))
      (split : d.currentCycles = done ++ x :: rest) (drains : t.Drains d done (done ++ [x]) late) :
      DrainStep S d run deadline late left s t
  | ends {t : State} (final : Shutting) (host : t.host = .joiningWatcher final)
      (stuck : final.stuck = run.stuck ++ (s.goingOn left).map (S.nameAt ·.1))
      (past : s.goingOn left ≠ [] → deadline ≤ s.now)
      (drains : t.Drains d d.currentCycles d.currentCycles (late ++ s.goingOn left)) :
      DrainStep S d run deadline late left s t

namespace DrainStep

variable {run : Shutting} {deadline : Nat} {late left left' rest : List (Nat × Nat)} {u : State}

theorem congr (h : DrainStep S d run deadline late left t u) (now : t.now = s.now)
    (same : t.goingOn left = s.goingOn left') : DrainStep S d run deadline late left' s u := by
  cases h with
  | waits done rest x early now' host split drains =>
    exact .waits done rest x (now ▸ early) (now'.trans now) host split drains
  | ends final host stuck past drains =>
    exact .ends final host (same ▸ stuck) (same ▸ now ▸ past) (same ▸ drains)

/-- The first cycle is given up, and nothing is waited for any more. -/
theorem abort (past : deadline ≤ s.now) (going : s.cycleIsOver c = false)
    (apart : ∀ x ∈ rest, x.2 ≠ c)
    (h : DrainStep S d { run with stuck := run.stuck ++ [S.nameAt p] } deadline
      (late ++ [(p, c)]) rest (s.abortCycle c) u) :
    DrainStep S d run deadline late ((p, c) :: rest) s u := by
  have others : (s.abortCycle c).goingOn rest = s.goingOn rest :=
    goingOn_congr fun x hx ↦ cycleIsOver_abortCycle_of_ne (apart x hx)
  have all : s.goingOn ((p, c) :: rest) = (p, c) :: s.goingOn rest := goingOn_cons_of_going going
  cases h with
  | waits done rest x early => exact absurd early (Nat.not_lt_of_le past)
  | ends final host stuck _ drains =>
    rw [others] at stuck drains
    refine .ends final host ?_ (fun _ ↦ past) ?_
    · rw [all, stuck, List.append_assoc]
      rfl
    · rw [List.append_assoc] at drains
      exact all ▸ drains

end DrainStep

theorem leavesAlone_endStopping (run : Shutting) (s : State) :
    LeavesAlone s (s.endStopping run) :=
  ((leavesAlone_enter (s := s) (h := .stopped run.stuck) nofun nofun).trans
    (leavesAlone_publish _ _)).trans (.of_chronicle rfl)

/-- One step of a stop: each cycle that is over is left behind, the next is told to end, and past
the deadline each that goes on is given up. -/
theorem stopFrom_drains (fits : d.Fits S) (run : Shutting) (deadline : Nat) (told : Bool)
    {done late left : List (Nat × Nat)} {s : State} (split : d.currentCycles = done ++ left)
    (known : ∀ x ∈ left, s.cycleIsOver x.2 = true → s.HasEnded x.2)
    (h : s.Drains d done (done ++ if told then left.take 1 else []) late) :
    DrainStep S d run deadline late left s (s.stopFrom S run deadline told left) := by
  have behind : ∀ {done rest : List (Nat × Nat)} {x : Nat × Nat},
      d.currentCycles = done ++ x :: rest → d.currentCycles = (done ++ [x]) ++ rest := by
    intro done rest x split
    rw [split, List.append_assoc]
    rfl
  have step := stopStep_stopFrom S run deadline told left s
  generalize s.stopFrom S run deadline told left = t at step ⊢
  induction step generalizing done late with
  | ends run told s =>
    have all : d.currentCycles = done := by rw [split, List.append_nil]
    have heard : (done ++ if told then [].take 1 else []) = done := by
      cases told <;> exact List.append_nil done
    rw [heard] at h
    have ended := h.keep (leavesAlone_endStopping run s) (grows_endStopping run s) fun _ hi ↦ hi
    refine .ends run rfl (List.append_nil _).symm (absurd rfl) ?_
    rw [all]
    exact (List.append_nil late).symm ▸ ended
  | @tells run p c rest s t later ih =>
    have same := cycleIsOver_cancelCycle (s := s) c
    rw [if_neg Bool.false_ne_true, List.append_nil] at h
    exact (ih split (fun x hx isOver ↦ (known x hx (same _ ▸ isOver)).grow (grows_cancelCycle c s))
      (h.tell fits split)).congr rfl (goingOn_congr fun x _ ↦ same x.2)
  | @skips run p c rest s t isOver later ih =>
    have gone : s.Drains d (done ++ [(p, c)]) (done ++ [(p, c)]) late :=
      h.skip isOver (known _ List.mem_cons_self isOver)
    exact (ih (behind split) (fun x hx ↦ known x (List.mem_cons_of_mem _ hx)) gone.untold).congr
      rfl (goingOn_cons_of_over isOver).symm
  | @aborts run p c rest s t going past later ih =>
    have apart := snd_ne_of_mem_behind fits split
    have gone : (s.abortCycle c).Drains d (done ++ [(p, c)]) (done ++ [(p, c)]) _ := h.abort p c
    refine .abort past going apart (ih (behind split) (fun x hx isOver ↦ ?_) gone.untold)
    rw [cycleIsOver_abortCycle_of_ne (apart x hx)] at isOver
    exact (known x (List.mem_cons_of_mem _ hx) isOver).grow (grows_abortCycle c s)
  | @waits run p c rest s going early =>
    exact .waits done rest (p, c) early rfl rfl split
      (h.keep (.of_chronicle rfl) (.of_eq rfl rfl) fun _ hi ↦ hi)

theorem hasEnded_of_cycleIsOver (recorded : s.RecordsEnds) {i : Nat} (there : i < s.cycles.size)
    (isOver : s.cycleIsOver i = true) : s.HasEnded i := by
  have here := Array.getElem?_eq_getElem there
  exact recorded i _ here (cycleIsOver_iff.1 isOver _ here)

theorem lt_of_mem_currentCycles {x : Nat × Nat} (fits : d.Fits S) (hx : x ∈ d.currentCycles) :
    x.2 < d.cycles.size ∧ x.1 < S.posts.size := by
  obtain ⟨c, hc, place⟩ := fits.runs _ _ (mem_currentCycles.1 hx)
  exact ⟨(Array.getElem?_eq_some_iff.1 hc).1, place ▸ fits.cycles _ c hc⟩

/-- The last moment of a stop that begins in `d`. -/
def deadline (S : Setup) (d : State) : Nat := d.now + S.settings.grace.millisUp

/-- The first step of a stop. -/
theorem beginStop_drains (fits : d.Fits S) (recorded : d.RecordsEnds)
    (near : S.settings.grace.isBeyondClocks = false) (watcher : Nat) (hasRelay : Bool) :
    ∃ run, run.stuck = [] ∧ DrainStep S d run (d.deadline S) [] d.currentCycles d
      (d.beginStop S watcher hasRelay) := by
  have now : d.hear.now = d.now := by rw [hear_frame]
  have cycles : d.hear.cycles = d.cycles := by rw [hear_frame]
  have same : ∀ i, d.hear.close.cycleIsOver i = d.cycleIsOver i :=
    cycleIsOver_of_cycles (t := d.hear.close) cycles
  have alone : LeavesAlone d d.hear := by
    unfold hear
    split
    · exact .of_chronicle rfl
    · exact leavesAlone_request _ d
  have heard : Grows d d.hear := by
    unfold hear
    split
    · exact .refl d
    · exact grows_request _ d
  have grows : Grows d d.hear.close := heard.trans (.of_eq rfl rfl)
  have known : ∀ x ∈ d.currentCycles, d.hear.close.cycleIsOver x.2 = true →
      d.hear.close.HasEnded x.2 := fun x hx isOver ↦
    (hasEnded_of_cycleIsOver recorded (lt_of_mem_currentCycles fits hx).1 (same _ ▸ isOver)).grow
      grows
  rw [beginStop_of_near near]
  exact ⟨_, rfl, (stopFrom_drains fits _ _ false rfl known
    (.start (alone.trans (.of_chronicle rfl)) grows)).congr now
      (goingOn_congr fun x _ ↦ same x.2)⟩

/-! ### From the beginning of a stop to its end -/

/-- A stop that began in `d` goes on in `s`: it waits for a cycle, which it has told to end after
all in front of it; it has given nobody up, and its last moment has not passed. -/
def IsUnwinding (S : Setup) (d s : State) : Prop :=
  ∃ (run : Shutting) (done rest : List (Nat × Nat)) (x : Nat × Nat),
    s.host = .stopping run (d.deadline S) (x :: rest) ∧ run.stuck = [] ∧
      d.currentCycles = done ++ x :: rest ∧ s.Drains d done (done ++ [x]) [] ∧
      s.now ≤ d.deadline S

theorem IsUnwinding.isAfterStop (h : IsUnwinding S d s) : s.host.isAfterStop = false := by
  obtain ⟨run, done, rest, x, host, -⟩ := h
  rw [host]
  rfl

theorem IsUnwinding.inReverse (h : IsUnwinding S d s) : s.TellsAfter d fun p q ↦ p < q := by
  obtain ⟨_, _, _, _, _, _, _, drains, _⟩ := h
  exact drains.inReverse

/-- A stop that began in `d` ends with the step of the host from `t`: each cycle was told to end,
and those that go on in `t` are given up and named, which happens at the last moment only. -/
structure IsUnwound (S : Setup) (d t : State) (final : Shutting) : Prop where
  host : (t.stepHost S).host = .joiningWatcher final
  drains : (t.stepHost S).Drains d d.currentCycles d.currentCycles (t.goingOn d.currentCycles)
  stuck : final.stuck = (t.goingOn d.currentCycles).map (S.nameAt ·.1)
  distinct : final.stuck.Nodup
  clean : final.stuck = [] ↔ ∀ x ∈ d.currentCycles, t.cycleIsOver x.2 = true
  inTime : t.now ≤ d.deadline S
  past : final.stuck ≠ [] → t.now = d.deadline S

theorem nodup_map_nameAt (distinct : S.names.Nodup) (fits : d.Fits S) {late : List (Nat × Nat)}
    (sub : late.Sublist d.currentCycles) : (late.map (S.nameAt ·.1)).Nodup := by
  have named : ∀ x ∈ late, S.names[x.1]? = some (S.nameAt x.1) := by
    intro x hx
    have lt := (lt_of_mem_currentCycles fits (sub.subset hx)).2
    simp [Setup.names, Setup.nameAt, lt]
  refine List.pairwise_map.2 (((pairwise_currentCycles d).sublist sub).imp_of_mem ?_)
  intro x y hx hy before same
  obtain ⟨lt, -⟩ := List.getElem?_eq_some_iff.1 (named x hx)
  have one : x.1 = y.1 := (List.getElem?_inj lt distinct).1 (by rw [named x hx, named y hy, same])
  exact Nat.ne_of_lt before one.symm

/-- What a step of the host makes of a stop. -/
theorem DrainStep.unwinds {run : Shutting} {done left : List (Nat × Nat)}
    (h : DrainStep S d run (d.deadline S) [] left s (s.stepHost S)) (distinct : S.names.Nodup)
    (fits : d.Fits S) (clean : run.stuck = []) (split : d.currentCycles = done ++ left)
    (isOver : ∀ x ∈ done, s.cycleIsOver x.2 = true) (inTime : s.now ≤ d.deadline S) :
    IsUnwinding S d (s.stepHost S) ∨ ∃ final, IsUnwound S d s final := by
  have same : s.goingOn left = s.goingOn d.currentCycles := by
    rw [split, goingOn_append_of_over isOver]
  generalize e : s.stepHost S = t at h
  cases h with
  | waits done rest x early now host split drains =>
    exact .inl ⟨run, done, rest, x, host, clean, split, drains, now ▸ inTime⟩
  | ends final host stuck past drains =>
    rw [clean, List.nil_append, same] at stuck
    rw [same] at past
    rw [List.nil_append, same] at drains
    refine .inr ⟨final, e ▸ host, e ▸ drains, stuck, ?_, ?_, inTime, fun named ↦ ?_⟩
    · rw [stuck]
      exact nodup_map_nameAt distinct fits List.filter_sublist
    · rw [stuck, List.map_eq_nil_iff]
      unfold goingOn
      simp
    · refine Nat.le_antisymm inTime (past fun none ↦ named ?_)
      rw [stuck, none]
      rfl

theorem unwinds_of_serving {watcher : Nat} {hasRelay : Bool} (distinct : S.names.Nodup)
    (fits : d.Fits S) (recorded : d.RecordsEnds) (near : S.settings.grace.isBeyondClocks = false)
    (serving : d.host = .serving watcher hasRelay)
    (due : d.isRequested = true ∨ d.signalled = true) :
    IsUnwinding S d (d.stepHost S) ∨ ∃ final, IsUnwound S d d final := by
  obtain ⟨run, clean, step⟩ := beginStop_drains fits recorded near watcher hasRelay
  rw [← stepHost_of_serving serving due] at step
  exact step.unwinds distinct fits clean (List.nil_append _).symm nofun (Nat.le_add_right _ _)

theorem IsUnwinding.stepHost (h : IsUnwinding S d s) (distinct : S.names.Nodup) (fits : d.Fits S)
    (recorded : s.RecordsEnds) (more : d.cycles.size ≤ s.cycles.size) :
    IsUnwinding S d (s.stepHost S) ∨ ∃ final, IsUnwound S d s final := by
  obtain ⟨run, done, rest, x, host, clean, split, drains, inTime⟩ := h
  have step : DrainStep S d run (d.deadline S) [] (x :: rest) s (s.stepHost S) := by
    rw [stepHost_of_stopping host]
    refine stopFrom_drains fits run _ true split (fun y hy isOver ↦ ?_) drains
    have mem : y ∈ d.currentCycles := by
      rw [split]
      exact List.mem_append_right _ hy
    have there := Nat.lt_of_lt_of_le (lt_of_mem_currentCycles fits mem).1 more
    exact hasEnded_of_cycleIsOver recorded there isOver
  exact step.unwinds distinct fits clean split drains.isOver inTime

end State

section Run

variable {S : Setup} {admits : Deed → Prop} {who : Option Task} {d s s' : State}

/-- Others leave a stop that goes on where it is. -/
theorem Changes.drains {run : Shutting} {deadline : Nat} {left done heard late : List (Nat × Nat)}
    (h : Changes S admits who s s') (alone : ¬ admits .call) (kept : ¬ admits .abandon)
    (other : who ≠ some .host) (ho : s.IsOrderly) (host : s.host = .stopping run deadline left)
    (drains : s.Drains d done heard late) : s'.Drains d done heard late := by
  refine (h.keeps (P := fun s ↦ s.host = .stopping run deadline left ∧ s.Drains d done heard late)
    (fun {t t'} ordered ht change ↦ ?_) ho ⟨host, drains⟩).2.2
  obtain ⟨host, drains⟩ := ht
  have closed := ordered.stopping _ _ _ host
  exact ⟨(change.host_of_other alone kept other).trans host,
    drains.keep (change.leavesAlone_of_other other (ordered.requested closed)) change.grows
      fun _ ↦ State.cycleIsOver_of_change change (by rw [host]; nofun) (.inl closed)⟩

/-- No time passes beyond the deadline of a stop that goes on. -/
theorem Step.le_deadline {run : Shutting} {deadline : Nat} {left : List (Nat × Nat)}
    (h : Step S admits s s') (alone : ¬ admits .call) (kept : ¬ admits .abandon)
    (ho : s.IsOrderly) (host : s.host = .stopping run deadline left) (inTime : s.now ≤ deadline) :
    s'.now ≤ deadline := by
  rcases h.host_cases alone kept ho with ⟨-, now⟩ | ⟨-, now⟩ | ⟨moment, rfl, -, waits, timers⟩
  · exact now ▸ inTime
  · exact now ▸ inTime
  · exact State.le_deadline_of_pass host waits timers

/-- A stop that began in `d` goes on or is over, and who has ended is on record. -/
structure State.IsAfter (S : Setup) (d s : State) : Prop where
  orderly : s.IsOrderly
  recorded : s.RecordsEnds
  more : d.cycles.size ≤ s.cycles.size
  stands : s.host.isAfterStop = true ∨ IsUnwinding S d s

/-- So it is after its first step, which takes no time. -/
theorem State.isAfter_stepHost (orderly : d.IsOrderly) (recorded : d.RecordsEnds)
    (enabled : d.isEnabled .host = true)
    (begins : IsUnwinding S d (d.stepHost S) ∨ ∃ final, IsUnwound S d d final) :
    IsAfter S d (d.stepHost S) ∧ (d.stepHost S).now = d.now := by
  have first : Step S (fun _ ↦ False) d (d.stepHost S) := .turn .host enabled
  have chain : Changes S (fun _ ↦ False) (some .host) d (d.stepHost S) :=
    changes_stepHost d orderly
  refine ⟨⟨first.isOrderly orderly, first.recordsEnds orderly recorded, chain.le_cycles, ?_⟩,
    chain.now⟩
  rcases begins with goes | ⟨final, ended⟩
  · exact .inr goes
  · exact .inl (by rw [ended.host]; rfl)

theorem Step.isAfter (h : Step S admits s s') (alone : ¬ admits .call) (kept : ¬ admits .abandon)
    (distinct : S.names.Nodup) (fits : d.Fits S) (hs : State.IsAfter S d s) :
    State.IsAfter S d s' where
  orderly := h.isOrderly hs.orderly
  recorded := h.recordsEnds hs.orderly hs.recorded
  more := by
    obtain ⟨who, chain⟩ := h.changes hs.orderly
    exact Nat.le_trans hs.more chain.le_cycles
  stands := by
    rcases h.turn_or_changes hs.orderly (· = .host) with ⟨_, rfl, rfl⟩ | ⟨who, other, chain⟩
    · rcases hs.stands with after | goes
      · exact .inl (State.isAfterStop_stepHost after)
      · rcases goes.stepHost distinct fits hs.recorded hs.more with goes | ⟨final, ended⟩
        · exact .inr goes
        · exact .inl (by
            show (s.stepHost S).host.isAfterStop = true
            rw [ended.host]
            rfl)
    · have host := chain.host_of_other alone kept (other _ rfl)
      rcases hs.stands with after | ⟨run, done, rest, x, stopping, clean, split, drains, inTime⟩
      · exact .inl (host ▸ after)
      · exact .inr ⟨run, done, rest, x, host.trans stopping, clean, split,
          chain.drains alone kept (other _ rfl) hs.orderly stopping drains,
          h.le_deadline alone kept hs.orderly stopping inTime⟩

/-- The step that ends a stop takes place by its last moment. -/
theorem Step.inTime (h : Step S admits s s') (alone : ¬ admits .call) (kept : ¬ admits .abandon)
    (hs : State.IsAfter S d s) (going : s.host.isAfterStop = false) : s'.now ≤ d.deadline S := by
  rcases hs.stands with after | ⟨run, done, rest, x, stopping, -, -, -, inTime⟩
  · rw [after] at going
    cases going
  · exact h.le_deadline alone kept hs.orderly stopping inTime

/-- In a run in which time goes on, a stop ends by its last moment. -/
theorem State.exists_isAfterStop {f : Nat → State} (begun : (f 0).now = d.now)
    (stands : ∀ n, State.IsAfter S d (f n)) (steps : ∀ n, Step S admits (f n) (f (n + 1)))
    (alone : ¬ admits .call) (kept : ¬ admits .abandon) (goesOn : ∀ m, ∃ n, m < (f n).now) :
    ∃ n, (f n).host.isAfterStop = true ∧ (f n).now ≤ d.deadline S := by
  have first : ∀ n, (f n).host.isAfterStop = true →
      ∃ n, (f n).host.isAfterStop = true ∧ (f n).now ≤ d.deadline S := by
    intro n
    induction n with
    | zero => exact fun ended ↦ ⟨0, ended, begun ▸ Nat.le_add_right _ _⟩
    | succ n ih =>
      intro ended
      cases before : (f n).host.isAfterStop with
      | true => exact ih before
      | false => exact ⟨n + 1, ended, (steps n).inTime alone kept (stands n) before⟩
  obtain ⟨n, late⟩ := goesOn (d.deadline S)
  rcases (stands n).stands with ended | ⟨-, -, -, -, -, -, -, -, inTime⟩
  · exact first n ended
  · exact absurd late (Nat.not_lt_of_le inTime)

/-- What a stop is that begins in `d`, as long as nobody asks for another run or gives it up. -/
structure State.StopsInReverse (S : Setup) (d : State) : Prop where
  /-- It takes all current cycles. -/
  taken : ∀ p i, (p, i) ∈ d.currentCycles ↔ d.run? p = some i
  /-- It takes them in reverse start order. -/
  descending : d.currentCycles.Pairwise fun x y ↦ y.1 < x.1
  /-- As long as it goes on, it tells them to end in this order, and each only after those of all
  who depend on it have ended. -/
  goes : ∀ s, Reaches S (Deed.StaysIn fun _ ↦ True) (d.stepHost S) s →
    s.host.isAfterStop = false →
    IsUnwinding S d s ∧ s.TellsAfter d fun p q ↦ S.Depends q p
  /-- So it does in the step with which it ends, and tells whom it has given up. -/
  ends : ∀ s, (s = d ∨ Reaches S (Deed.StaysIn fun _ ↦ True) (d.stepHost S) s ∧
      s.host.isAfterStop = false) → (s.stepHost S).host.isAfterStop = true →
    ∃ final, IsUnwound S d s final ∧ (s.stepHost S).TellsAfter d fun p q ↦ S.Depends q p
  /-- In a run in which time goes on, it ends by its last moment. -/
  returns : ∀ f : Nat → State, f 0 = d.stepHost S →
    (∀ n, Step S (Deed.StaysIn fun _ ↦ True) (f n) (f (n + 1))) → (∀ m, ∃ n, m < (f n).now) →
    ∃ n, (f n).host.isAfterStop = true ∧ (f n).now ≤ d.deadline S

/-- **A stop takes cycles in reverse start order, under one deadline.** -/
theorem stop_unwinds {rs : List Resource} {bus : Bus} {recorder : Option Recorder} {now : Nat}
    {watcher : Nat} {hasRelay : Bool} (table : Setup.posts? rs = .ok S.posts)
    (near : S.settings.grace.isBeyondClocks = false)
    (before : Reaches S (fun _ ↦ True) (State.initial S bus recorder now) d)
    (serving : d.host = .serving watcher hasRelay)
    (due : d.isRequested = true ∨ d.signalled = true) : State.StopsInReverse S d := by
  obtain ⟨orderly, fits⟩ := before.fits
  have recorded := before.recordsEnds
  have distinct := Setup.place_names_nodup table
  have dependents : ∀ {s : State}, s.TellsAfter d (fun p q ↦ p < q) →
      s.TellsAfter d fun p q ↦ S.Depends q p :=
    fun told ↦ told.mono fun p q depends ↦ depends.lt table
  have alone : ¬ Deed.StaysIn (fun _ ↦ True) .call := fun h ↦ h.2.1 rfl
  have kept : ¬ Deed.StaysIn (fun _ ↦ True) .abandon := fun h ↦ h.2.2 rfl
  have begins := State.unwinds_of_serving distinct fits recorded near serving due
  have start := State.isAfter_stepHost orderly recorded
    (State.isEnabled_of_serving serving due) begins
  have stands : ∀ {s}, Reaches S (Deed.StaysIn fun _ ↦ True) (d.stepHost S) s →
      State.IsAfter S d s :=
    fun run ↦ run.keeps (fun hs step ↦ step.isAfter alone kept distinct fits hs) start.1
  refine ⟨fun p i ↦ State.mem_currentCycles, State.pairwise_currentCycles d,
    fun s run going ↦ ?_, fun s moment ended ↦ ?_, fun f begun steps goesOn ↦ ?_⟩
  · have goes := (stands run).stands.resolve_left (by rw [going]; nofun)
    exact ⟨goes, dependents goes.inReverse⟩
  · have outcome : State.IsUnwinding S d (s.stepHost S) ∨ ∃ final, State.IsUnwound S d s final := by
      rcases moment with rfl | ⟨run, going⟩
      · exact begins
      · have after := stands run
        exact (after.stands.resolve_left (by rw [going]; nofun)).stepHost distinct fits
          after.recorded after.more
    rcases outcome with goes | ⟨final, unwound⟩
    · rw [goes.isAfterStop] at ended
      cases ended
    · exact ⟨final, unwound, dependents unwound.drains.inReverse⟩
  · have along : ∀ n, Reaches S (Deed.StaysIn fun _ ↦ True) (d.stepHost S) (f n) := by
      intro n
      induction n with
      | zero => exact begun ▸ .refl _
      | succ n ih => exact ih.step (steps n)
    exact State.exists_isAfterStop (begun ▸ start.2) (fun n ↦ stands (along n)) steps alone kept
      goesOn

end Run

/-! ### A pier -/

/-- The store hangs, even when it is told to end; the interface in front of it ends then. -/
def Resource.pier : List Resource :=
  [{ name := "api", dependsOn := ["db"], behaviour := fun _ ↦ { serve := [.untilCancelled] } },
    { name := "db", behaviour := fun _ ↦ { start := [.mark .ready], serve := [.hang] } }]

/-- The pier waits 100 milliseconds at the end. -/
def Setup.pier : Setup where
  settings := { Settings.standard with grace := .ofMillis 100 }
  posts := (posts? Resource.pier).toOption.getD #[]

theorem Setup.table_pier : posts? Resource.pier = .ok pier.posts :=
  posts?_eq_ok_of_isOk (by decide +kernel)

namespace State

/-- Both serve, and a termination signal comes. -/
def pierAsked : State :=
  ((asked .pier).stepHost .pier).play .pier
    (Cue.turns [(.cycle 0, 4), (.cycle 1, 3)] ++ [.deed .signal])

/-- The interface has ended, and the store goes on when the stop has to end. -/
def pierLate : State :=
  ((pierAsked.stepHost .pier).play .pier
    (Cue.turns [(.relay, 6), (.watcher 0, 1), (.cycle 1, 3), (.host, 1), (.relay, 2)])).passTo 100

end State

/-- The interface is told to end before the store, and the store alone is given up and named. -/
theorem pier_unwinds :
    ∃ final, State.IsUnwound .pier State.pierAsked State.pierLate final ∧
      final.stuck = ["db"] ∧ (State.pierLate.stepHost .pier).told = [1, 0] := by
  have before : Reaches .pier (fun _ ↦ True) (State.atRest .pier) State.pierAsked :=
    State.reaches_play (.step (State.reaches_asked _ trivial) (.turn .host rfl))
      (by decide +kernel) fun _ _ ↦ trivial
  have during : Reaches .pier (Deed.StaysIn fun _ ↦ True) (State.pierAsked.stepHost .pier)
      State.pierLate :=
    State.reaches_passTo (State.reaches_play (.refl _) (by decide +kernel)
      fun d hd ↦ absurd hd (Cue.deed_notMem_turns d _)) (by decide +kernel)
  have serving : State.pierAsked.host = .serving 0 true := by decide +kernel
  have stop : State.StopsInReverse .pier State.pierAsked :=
    stop_unwinds Setup.table_pier (by decide) before serving (.inr (by decide +kernel))
  obtain ⟨final, unwound, -⟩ :=
    stop.ends State.pierLate (.inr ⟨during, by decide +kernel⟩) (by decide +kernel)
  refine ⟨final, unwound, ?_, ?_⟩
  · have late : (State.pierLate.goingOn State.pierAsked.currentCycles).map (Setup.pier.nameAt ·.1)
        = ["db"] := by
      decide +kernel
    rw [unwound.stuck, late]
  · have told : State.pierAsked.told ++ State.pierAsked.currentCycles.map (·.2) = [1, 0] := by
      decide +kernel
    rw [unwound.drains.told, told]

end Supervision
