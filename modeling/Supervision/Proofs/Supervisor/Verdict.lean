import Supervision.Proofs.Supervisor.LatestMove

/-!
# One decision by either way

A watcher learns of a failure or a crash by the news of it, or, when it has missed news, by looking
at the resource. The news carries the reason along, and the resource keeps it, so both ways come to
the same decision (`State.Agree.same`).

Once a failure has been acted on (`State.HasActed`), nothing more is done about it, by whichever way
a watcher hears of it again, until the resource fails anew.

* `treatAll_eq` — going both ways, in any order and any number of times, does what going one way
  does once.
* `onFailed_of_hasActed`, `Reaches.hasActed` — a failure is acted on at most once.
* `event_and_rescan_agree` — all of that of whoever has failed or crashed in a run.
-/

namespace Supervision

namespace State

variable {S : Setup} {s t : State} {p k : Nat} {l : Lifecycle} {f : Failure}

/-- The failures of the resource in a place up to number `k` have been acted on, or the shutdown has
begun. -/
def HasActed (p k : Nat) (s : State) : Prop := s.isRequested = true ∨ k ≤ (s.account p).handled

/-! ### Failures that have been acted on -/

theorem setAccount_account (p : Nat) (s : State) : s.setAccount p (s.account p) = s := by
  have members : (s.setAccount p (s.account p)).members = s.members := by
    refine Array.ext_getElem? fun q ↦ ?_
    rw [setAccount, getElem?_modifyMember]
    split
    · rename_i here
      subst here
      cases hm : s.members[p]? with
      | none => rfl
      | some m => rw [Option.map_some, account, hm]; rfl
    · rfl
  exact congrArg (fun ms ↦ { s with members := ms }) members

/-- Nothing more is done about a failure that has been acted on. -/
theorem onFailed_of_hasActed {resource : String} (reason : String)
    (hp : S.place? resource = some p) (acted : s.HasActed p (s.failures p)) :
    s.onFailed S resource reason = ⟨s, none⟩ := by
  unfold onFailed
  rcases acted with requested | known
  · rw [if_pos requested]
  · split
    · rfl
    · have handled : (s.account p).onFailure S.settings (S.dice s.rolls)
          (((s.lifecycle? p).map (·.failures)).getD 0) = .ok (.handled, s.account p) :=
        Account.onFailure_handled_iff.2 ⟨known, rfl⟩
      have judged : s.judge S p = .ok (.handled, s) := by
        unfold judge
        dsimp only
        rw [handled]
        dsimp only
        rw [setAccount_account]
      rw [hp]
      dsimp only
      rw [judged]
      rfl

theorem state_onFailed_of_broke {resource reason : String} {e : Span.Unreadable}
    (broke : (s.onFailed S resource reason).broke = some e) :
    (s.onFailed S resource reason).state = s := by
  have h := heed_onFailed S resource reason s
  generalize s.onFailed S resource reason = r at h broke ⊢
  cases h with
  | broken hp here hd left => rfl
  | _ => cases broke

/-- A failure is acted on when a watcher hears of it, unless the watcher breaks. -/
theorem hasActed_onFailed (fits : s.Fits S) {resource reason : String}
    (hp : S.place? resource = some p) (whole : (s.onFailed S resource reason).broke = none) :
    (s.onFailed S resource reason).state.HasActed p (s.failures p) := by
  have same : (s.onFailed S resource reason).state.failures p = s.failures p := by
    unfold failures
    rw [lifecycle?_onFailed]
  have acts := acts_onFailed fits whole hp
  rw [same] at acts
  exact acts

/-- To hear of a failure again changes nothing. -/
theorem onFailed_onFailed (fits : s.Fits S) {resource reason : String}
    (hp : S.place? resource = some p) :
    (s.onFailed S resource reason).state.onFailed S resource reason
      = s.onFailed S resource reason := by
  cases broke : (s.onFailed S resource reason).broke with
  | some e => rw [state_onFailed_of_broke broke]
  | none =>
    have same : (s.onFailed S resource reason).state.failures p = s.failures p := by
      unfold failures
      rw [lifecycle?_onFailed]
    rw [onFailed_of_hasActed reason hp (same ▸ hasActed_onFailed fits hp broke), ← broke]

theorem escalate_of_isRequested {resource reason : String} (h : s.isRequested = true) :
    s.escalate resource reason = s := if_pos h

theorem lifecycle?_escalate (resource reason : String) (s : State) (p : Nat) :
    (s.escalate resource reason).lifecycle? p = s.lifecycle? p := by
  unfold escalate
  split
  · rfl
  · exact lifecycle?_request _ p

/-! ### The two ways -/

/-- A way by which a watcher learns what has become of a resource. -/
inductive Way where
  /-- It takes the news off the bus. -/
  | event
  /-- It has missed news and looks at the resource. -/
  | rescan
deriving DecidableEq

/-- What a watcher does by a way about the resource in a place, with the news there is of it. -/
def treat (S : Setup) (news : Event) (p : Nat) (s : State) : Way → Watched
  | .event => s.onEvent S news
  | .rescan => s.rescanOne S p

/-- What watchers do by several ways, one after the other. -/
def treatAll (S : Setup) (news : Event) (p : Nat) (s : State) (ways : List Way) : State :=
  ways.foldl (fun s way ↦ (s.treat S news p way).state) s

/-- The resource in a place has failed or crashed for a reason, and the news tells that. -/
structure IsKnown (p : Nat) (l : Lifecycle) (f : Failure) (news : Event) (s : State) : Prop where
  here : s.lifecycle? p = some l
  failing : l.status = .failed ∨ l.status = .crashed
  last : l.lastFailure = some f
  news : ∃ source, news = .transition ⟨l.name, source, l.status, some f⟩

section Known

variable {news : Event}

theorem IsKnown.rescanOne_of_failed (h : s.IsKnown p l f news) (failed : l.status = .failed) :
    s.rescanOne S p = s.onFailed S l.name f.message := by
  unfold rescanOne
  rw [h.here]
  dsimp only
  rw [failed, h.last]
  rfl

theorem IsKnown.rescanOne_of_crashed (h : s.IsKnown p l f news) (crashed : l.status = .crashed) :
    s.rescanOne S p = ⟨s.escalate l.name f.message, none⟩ := by
  unfold rescanOne
  rw [h.here]
  dsimp only
  rw [crashed, h.last]
  rfl

/-- **By either way a watcher makes the same of it.** -/
theorem IsKnown.treat_eq (h : s.IsKnown p l f news) (way : Way) :
    s.treat S news p way = s.rescanOne S p := by
  cases way with
  | rescan => rfl
  | event =>
    obtain ⟨source, rfl⟩ := h.news
    rcases h.failing with failed | crashed
    · rw [h.rescanOne_of_failed failed]
      show s.onEvent S _ = _
      unfold onEvent
      rw [failed]
      rfl
    · rw [h.rescanOne_of_crashed crashed]
      show s.onEvent S _ = _
      unfold onEvent
      rw [crashed]
      rfl

theorem IsKnown.after (h : s.IsKnown p l f news) :
    (s.rescanOne S p).state.IsKnown p l f news := by
  refine { h with here := ?_ }
  rcases h.failing with failed | crashed
  · rw [h.rescanOne_of_failed failed, lifecycle?_onFailed]
    exact h.here
  · rw [h.rescanOne_of_crashed crashed, lifecycle?_escalate]
    exact h.here

/-- To look at it again changes nothing. -/
theorem IsKnown.rescanOne_rescanOne (h : s.IsKnown p l f news) (fits : s.Fits S)
    (hp : S.place? l.name = some p) :
    (s.rescanOne S p).state.rescanOne S p = s.rescanOne S p := by
  rcases h.failing with failed | crashed
  · rw [h.after.rescanOne_of_failed failed, h.rescanOne_of_failed failed]
    exact onFailed_onFailed fits hp
  · rw [h.after.rescanOne_of_crashed crashed, h.rescanOne_of_crashed crashed]
    rw [escalate_of_isRequested (isRequested_escalate _ _ _)]

/-- **Going both ways, in any order and any number of times, does what going one way does once.** -/
theorem IsKnown.treatAll_eq (h : s.IsKnown p l f news) (fits : s.Fits S)
    (hp : S.place? l.name = some p) (way : Way) (ways : List Way) :
    s.treatAll S news p (way :: ways) = (s.rescanOne S p).state := by
  -- The first way leads to a state that every further way leaves as it is.
  have stays : ∀ ways, (s.rescanOne S p).state.treatAll S news p ways
      = (s.rescanOne S p).state := by
    intro ways
    induction ways with
    | nil => rfl
    | cons way rest ih =>
      have first : ((s.rescanOne S p).state.treat S news p way).state
          = (s.rescanOne S p).state := by
        rw [h.after.treat_eq way, h.rescanOne_rescanOne fits hp]
      show treatAll S news p ((s.rescanOne S p).state.treat S news p way).state rest = _
      rw [first]
      exact ih
  show treatAll S news p (s.treat S news p way).state ways = _
  rw [h.treat_eq way]
  exact stays ways

end Known

end State

/-! ### Later on -/

section Later

variable {S : Setup} {admits : Deed → Prop} {who : Option Task} {s t : State} {p k : Nat}

/-- What has been acted on stays so. -/
theorem Change.hasActed (h : Change S admits who s t) (fits : s.Fits S)
    (acted : s.HasActed p k) : t.HasActed p k := by
  rcases acted with requested | known
  · exact .inl (h.isRequested requested)
  · exact .inr (Nat.le_trans known (h.handled_mono fits))

theorem Reaches.hasActed (h : Reaches S admits s t) (ho : s.IsOrderly) (fits : s.Fits S)
    (acted : s.HasActed p k) : t.HasActed p k :=
  (h.keeps_changes (P := fun s ↦ s.Fits S ∧ s.HasActed p k)
    (fun _ hs change ↦ ⟨change.fits hs.1, change.hasActed hs.1 hs.2⟩) ho ⟨fits, acted⟩).2.2

end Later

/-- What watchers make of a resource that has failed or crashed for a reason, with the news of
that. -/
structure State.Agree (S : Setup) (admits : Deed → Prop) (s₀ : State) (p : Nat) (l : Lifecycle)
    (f : Failure) (news : Event) (s : State) : Prop where
  /-- The news and a look at the resource lead to the same. -/
  same : s.onEvent S news = s.rescanOne S p
  /-- Going both ways, in any order and any number of times, does what going one way does once. -/
  again : ∀ way ways, s.treatAll S news p (way :: ways) = (s.rescanOne S p).state
  /-- A failure is heeded with the reason that the resource keeps. -/
  failed : l.status = .failed → s.Heed S l.name f.message (s.rescanOne S p)
  /-- A crash begins the shutdown with that reason, unless it has begun. -/
  crashed : l.status = .crashed → s.rescanOne S p = ⟨s.escalate l.name f.message, none⟩
  /-- Unless the watcher breaks, it has been acted on then. -/
  acted : (s.rescanOne S p).broke = none → (s.rescanOne S p).state.HasActed p (s.failures p)
  /-- Once it has been acted on, nothing more is done about it until the resource fails anew. -/
  once : ∀ {t u : State}, Reaches S admits s₀ t → t.HasActed p (s.failures p) →
    Reaches S admits t u → u.failures p ≤ s.failures p →
    ∀ reason, u.onFailed S l.name reason = ⟨u, none⟩

variable {S : Setup} {admits : Deed → Prop} {bus : Bus} {recorder : Option Recorder} {now p : Nat}
  {s : State} {l : Lifecycle}

/-- **The news of a failure and a look at the resource lead to the same decision.** In every run,
whoever has failed or crashed has a latest move, and whichever way a watcher hears of it, however
often, the same is done about it, once. -/
theorem event_and_rescan_agree (distinct : S.names.Nodup)
    (run : Reaches S admits (.initial S bus recorder now) s) (here : s.lifecycle? p = some l)
    (failing : l.status = .failed ∨ l.status = .crashed) :
    (∃ news since, LatestMove S admits (.initial S bus recorder now) p news since s) ∧
      ∀ news since, LatestMove S admits (.initial S bus recorder now) p news since s →
        ∃ source f, news = .transition ⟨l.name, source, l.status, some f⟩ ∧
          State.Agree S admits (.initial S bus recorder now) p l f news s := by
  have fits := run.fits.2
  have hp : S.place? l.name = some p := fits.place?_name distinct here
  refine ⟨run.exists_latestMove here fun fresh ↦ ?_, fun news since latest ↦ ?_⟩
  · rw [fresh] at failing
    rcases failing with e | e <;> cases e
  obtain ⟨source, failure, told, detail⟩ := latest.tells here
  have isFailure : l.status.isFailure = true := by
    rcases failing with e | e <;> rw [e] <;> rfl
  obtain ⟨f, rfl, last⟩ := detail isFailure
  have known : s.IsKnown p l f news := ⟨here, failing, last, source, told⟩
  refine ⟨source, f, told, ?_⟩
  exact
    { same := known.treat_eq .event
      again := known.treatAll_eq fits hp
      failed := fun failed ↦ known.rescanOne_of_failed (S := S) failed ▸ State.heed_onFailed ..
      crashed := known.rescanOne_of_crashed
      acted := fun whole ↦ by
        rcases failing with failed | crashed
        · rw [known.rescanOne_of_failed failed] at whole ⊢
          exact State.hasActed_onFailed fits hp whole
        · rw [known.rescanOne_of_crashed crashed]
          exact .inl (State.isRequested_escalate _ _ _)
      once := fun earlier acted later failures reason ↦ by
        have stays := later.hasActed earlier.fits.1 earlier.fits.2 acted
        refine State.onFailed_of_hasActed reason hp ?_
        exact stays.imp_right (Nat.le_trans failures) }

namespace State

/-- The stubborn resource has failed, and nobody has heard of it yet. -/
def stubbornFails : State :=
  (asked .stubborn).play .stubborn (.turn .host :: .replicate 4 (.turn (.cycle 0)))

end State

/-- By either way and by both, one restart is put on the calendar for the stubborn resource. -/
theorem stubborn_agree :
    Setup.stubborn.names.Nodup ∧ ∃ l,
      Reaches .stubborn (· = .call) (.atRest .stubborn) State.stubbornFails ∧
      State.stubbornFails.lifecycle? 0 = some l ∧ (l.status = .failed ∨ l.status = .crashed) ∧
      (State.stubbornFails.rescanOne .stubborn 0).state.ensemble.bus.sent.back?
        = some (.scheduled "a" 1 (.ofSecs 0) "lost") ∧
      ∃ news since, LatestMove .stubborn (· = .call) (.atRest .stubborn) 0 news since
          State.stubbornFails ∧
        (State.stubbornFails.treatAll .stubborn news 0 [.event, .rescan, .event]).restarts.size
          = 1 := by
  have distinct : Setup.stubborn.names.Nodup := by decide +kernel
  have run : Reaches .stubborn (· = .call) (.atRest .stubborn) State.stubbornFails :=
    State.reaches_play (State.reaches_asked .stubborn rfl) (by decide +kernel) (by simp)
  have here : ∃ l, State.stubbornFails.lifecycle? 0 = some l ∧ l.status = .failed :=
    ⟨⟨"a", .failed, .down "lost", 1, some (.plain "resource_failed" "lost")⟩,
      by decide +kernel, rfl⟩
  obtain ⟨l, here, failed⟩ := here
  obtain ⟨⟨news, since, latest⟩, agree⟩ := event_and_rescan_agree distinct run here (.inl failed)
  obtain ⟨source, f, -, agrees⟩ := agree news since latest
  refine ⟨distinct, l, run, here, .inl failed, by decide +kernel, news, since, latest, ?_⟩
  rw [agrees.again]
  decide +kernel

end Supervision
