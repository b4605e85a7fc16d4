import Supervision.Proofs.Recording.Sessions
import Supervision.Proofs.Supervisor.Feeding

/-!
# What the tracker tells the record store

The tracker is the subscriber that notes crashes with the session of the record store;
`State.noted` lists those it has handled. A supervisor does not have its record store to itself:
whoever holds it may write records and register what it runs at any time (`Recorder.Use`), so steps
are looked at among such uses (`SharedStep`).

* `Change.recorder` — nobody but the host, the workers, the writer and the keeper does anything to
  the record store.
* `SharedStep.host_or_moves` — a step is the host's, or it moves the recorder on
  (`Recorder.Move`), and tells it what the tracker has noted meanwhile.
-/

namespace Supervision

/-! ### Steps among the uses of others -/

/-- One step of a supervisor, or one use that somebody else makes of its record store. -/
inductive SharedStep (S : Setup) (admits : Deed → Prop) : State → State → Prop where
  | own {s t : State} (h : Step S admits s t) : SharedStep S admits s t
  | use {s : State} {r r' : Recorder} (has : s.recorder = some r) (h : r.Use r') :
    SharedStep S admits s { s with recorder := some r' }

/-- A state that a supervisor can reach from another while others use its record store. -/
abbrev SharedReaches (S : Setup) (admits : Deed → Prop) : State → State → Prop :=
  Relation.ReflTransGen (SharedStep S admits)

section Shared

variable {S : Setup} {admits : Deed → Prop} {s t : State}

/-- Others need not use it. -/
theorem Reaches.shared (h : Reaches S admits s t) : SharedReaches S admits s t := by
  induction h with
  | refl => exact .refl
  | step _ last ih => exact ih.tail (.own last)

theorem SharedStep.isOrderly (h : SharedStep S admits s t) (ho : s.IsOrderly) : t.IsOrderly := by
  cases h with
  | own step => exact step.isOrderly ho
  | use => exact ⟨ho.requested, ho.stopping⟩

end Shared

/-! ### Who touches the record store -/

section Changes

variable {S : Setup} {admits : Deed → Prop} {who : Option Task} {s s' : State}

theorem Change.recorder (h : Change S admits who s s')
    (other : ∀ t : Task, t.isRecording = true → who ≠ some t) : s'.recorder = s.recorder := by
  cases h with
  | aside relay fanout recorder signalled deaf _ records =>
    rcases records with same | ⟨t, rfl, does⟩
    · exact same
    · exact absurd rfl (other t does)
  | request c => rw [State.request_frame]
  | mark hm own => rw [State.mark_frame hm]
  | begin hc fresh hm => rw [State.mark_frame hm]; rfl
  | heed resource reason => rw [State.onFailed_frame]
  | release hr waits due => rw [State.release_frame]
  | respawn hr gone => rw [State.respawn_frame]
  | confirm hc hr hb => rw [State.confirm_frame]
  | _ => rfl

theorem Changes.recorder (h : Changes S admits who s s')
    (other : ∀ t : Task, t.isRecording = true → who ≠ some t) : s'.recorder = s.recorder := by
  induction h with
  | refl => rfl
  | tail _ last ih => exact (last.recorder other).trans ih

/-- Who is not the host leaves it where it is; from outside a run is asked for or given up. -/
theorem Changes.host_cases (h : Changes S admits who s s') (other : who ≠ some .host) :
    s'.host = s.host ∨ admits .call ∧ s'.host = .fresh ∨ admits .abandon ∧ s'.host = .absent := by
  induction h with
  | refl => exact .inl rfl
  | tail _ last ih =>
    rcases last.host with same | ⟨host, -⟩ | ⟨-, given | called⟩
    · rwa [same]
    · exact absurd host other
    · exact .inr (.inr given)
    · exact .inr (.inl called)

end Changes

namespace State

variable {S : Setup} {admits : Deed → Prop} {s t : State} {r : Recorder}

/-! ### What the tracker has noted -/

/-- The crashes that the tracker has handled, in order. -/
def noted (S : Setup) (s : State) : List Failure :=
  match S.tracker with
  | some i => (s.handledBy i).toList.filterMap Recorder.crash?
  | none => []

theorem noted_congr (same : ∀ i, S.tracker = some i → t.handledBy i = s.handledBy i) :
    t.noted S = s.noted S := by
  rw [noted, noted]
  split
  · rw [same _ ‹_›]
  · rfl

theorem noted_of_fanout (h : t.fanout = s.fanout) : t.noted S = s.noted S :=
  noted_congr fun i _ ↦ by rw [handledBy, handledBy, h]

theorem noted_initial (S : Setup) (bus : Bus) (recorder : Option Recorder) (now : Nat) :
    (State.initial S bus recorder now).noted S = [] := by
  have idle (i : Nat) : (State.initial S bus recorder now).handledBy i = #[] := by
    rw [handledBy]
    cases here : (State.initial S bus recorder now).fanout.workers[i]? with
    | none => rfl
    | some w => rw [(Array.mem_replicate.mp (Array.mem_of_getElem? here)).2]; rfl
  rw [noted]
  split
  · rw [idle]; rfl
  · rfl

/-- The relay handles nothing for a subscriber. -/
theorem handledBy_stepRelay (S : Setup) (s : State) (i : Nat) :
    (s.stepRelay S).handledBy i = s.handledBy i := by
  have emits (e : Event) : ((s.fanout.emit S.subscribers e).1.workers[i]?).map (·.handled)
      = (s.fanout.workers[i]?).map (·.handled) := by
    rw [Fanout.workers_emit, Option.map_map]
    congr 1
    funext w
    exact Fanout.handled_offered i w
  rw [stepRelay]
  split
  · rfl
  · split
    · split
      · dsimp only
        rw [publishAll_eq, handledBy, handledBy]
        exact congrArg (Option.getD · #[]) (emits _)
      · rfl
      · split <;> rfl
    · split <;> rfl
    · rfl

/-- A step of a worker handles one event at most, for its own subscriber. -/
theorem handledBy_stepWorker (S : Setup) (s : State) (i : Nat) :
    ∃ new : Option Event, (s.stepWorker S i).handledBy i = s.handledBy i ++ new.toArray := by
  have rests (same : (s.stepWorker S i).handledBy i = s.handledBy i) : ∃ new : Option Event,
      (s.stepWorker S i).handledBy i = s.handledBy i ++ new.toArray :=
    ⟨none, same.trans Array.append_empty.symm⟩
  have fanout := (stepWorker_frame S i s).2
  cases there : (s.stepWorker S i).fanout.workers[i]? with
  | none =>
    have before : s.fanout.workers[i]? = none := by
      rw [Array.getElem?_eq_none_iff, ← Fanout.size_step, ← fanout]
      exact Array.getElem?_eq_none_iff.mp there
    exact rests (by rw [handledBy, handledBy, there, before])
  | some w' =>
    rw [fanout] at there
    rcases Fanout.stride_step there with here | ⟨sub, w, reports, -, here, stride⟩
    · exact rests (by rw [handledBy, handledBy, fanout, there, here])
    · rw [handledBy, handledBy, fanout, there, here]
      rcases stride.handled with same | ⟨e, pushed⟩
      · exact ⟨none, same.trans Array.append_empty.symm⟩
      · exact ⟨some e, pushed.trans Array.push_eq_append⟩

/-- Nobody handles anything for another subscriber. -/
theorem handledBy_stepWorker_of_ne {i j : Nat} (ne : i ≠ j) :
    (s.stepWorker S i).handledBy j = s.handledBy j := by
  rw [handledBy, handledBy, (stepWorker_frame S i s).2, Fanout.getElem?_step_of_ne ne]

/-- What the tracker has handled is passed on. -/
theorem recorder_stepWorker (S : Setup) (s : State) (i : Nat) :
    (s.stepWorker S i).recorder =
      if S.tracker = some i then
        match ((s.stepWorker S i).handledBy i)[(s.handledBy i).size]? with
        | some e => s.recorder.map (·.track e)
        | none => s.recorder
      else s.recorder := by
  obtain ⟨t, reported, recorder, fanout⟩ : ∃ t,
      { s with fanout := (s.fanout.step S.subscribers s.now i).1 }.publishAll
        (s.fanout.step S.subscribers s.now i).2 = t ∧ t.recorder = s.recorder ∧
      t.fanout = (s.fanout.step S.subscribers s.now i).1 :=
    ⟨_, rfl, by rw [publishAll_eq], by rw [publishAll_eq]⟩
  have handled : (s.stepWorker S i).handledBy i = t.handledBy i := by
    rw [handledBy, handledBy, (stepWorker_frame S i s).2, fanout]
  rw [handled, stepWorker]
  dsimp only
  rw [reported, ← recorder]
  split
  · cases (t.handledBy i)[(s.handledBy i).size]? <;> rfl
  · rfl

/-! ### Moves of the recorder -/

/-- From `s` to `t` the recorder has made a move, and was told what the tracker has noted. -/
def MovesOn (S : Setup) (r : Recorder) (s t : State) : Prop :=
  ∃ news r', r.Move news r' ∧ t.recorder = some r' ∧ t.noted S = s.noted S ++ news

/-- The recorder has made a move that the tracker has nothing to do with. -/
theorem MovesOn.of_fanout {r' : Recorder} (move : r.Move [] r') (recorder : t.recorder = some r')
    (fanout : t.fanout = s.fanout) : s.MovesOn S r t :=
  ⟨[], r', move, recorder, by rw [noted_of_fanout fanout, List.append_nil]⟩

theorem movesOn_stepRelay (has : s.recorder = some r) : s.MovesOn S r (s.stepRelay S) := by
  have chain : Changes S (fun _ ↦ True) (some .relay) s (s.stepRelay S) := changes_stepRelay s
  have recorder := chain.recorder (by rintro t does ⟨⟩; cases does)
  refine ⟨[], r, .rests, recorder.trans has, ?_⟩
  rw [noted_congr fun i _ ↦ handledBy_stepRelay S s i, List.append_nil]

theorem movesOn_stepWorker (has : s.recorder = some r) (i : Nat) :
    s.MovesOn S r (s.stepWorker S i) := by
  have recorder := recorder_stepWorker S s i
  by_cases tracks : S.tracker = some i
  · obtain ⟨new, handled⟩ := handledBy_stepWorker S s i
    rw [if_pos tracks, handled, has] at recorder
    have noted_ : (s.stepWorker S i).noted S
        = s.noted S ++ new.toList.filterMap Recorder.crash? := by
      simp only [noted, tracks, handled, Array.toList_append, List.filterMap_append,
        Option.toList_toArray]
    cases new with
    | none =>
      refine ⟨[], r, .rests, ?_, noted_⟩
      simpa using recorder
    | some e =>
      refine ⟨(Recorder.crash? e).toList, r.track e, .tracks e, ?_, ?_⟩
      · simpa using recorder
      · rw [noted_, Option.toList_some]
        cases crash : Recorder.crash? e <;> simp [crash]
  · rw [if_neg tracks, has] at recorder
    refine ⟨[], r, .rests, recorder, ?_⟩
    rw [List.append_nil]
    exact noted_congr fun j tracker ↦
      handledBy_stepWorker_of_ne fun same ↦ tracks (same ▸ tracker)

end State

section Shared

variable {S : Setup} {admits : Deed → Prop} {s t : State} {r : Recorder}

/-- **Between the steps of the host, the recorder moves on** with what the tracker notes. -/
theorem SharedStep.host_or_moves (last : SharedStep S admits s t) (ho : s.IsOrderly)
    (has : s.recorder = some r) :
    t = s.stepHost S ∨
      s.MovesOn S r t ∧ (t.host = s.host ∨ admits .call ∧ t.host = .fresh ∨
        admits .abandon ∧ t.host = .absent) := by
  cases last with
  | use has' use =>
    cases has.symm.trans has'
    exact .inr ⟨.of_fanout (.uses use) rfl rfl, .inl rfl⟩
  | own step =>
    rcases step.turn_or_changes ho (fun t ↦ t.isFeeding = true ∨ t.isRecording = true) with
      ⟨task, does, rfl⟩ | ⟨who, other, chain⟩
    · by_cases host : task = .host
      · subst host
        exact .inl rfl
      · have chain : Changes S admits (some task) s (s.step S task) := State.changes_step task s ho
        refine .inr ⟨?_, chain.host_cases fun same ↦ host (Option.some.inj same)⟩
        cases task with
        | host => exact absurd rfl host
        | relay => exact State.movesOn_stepRelay has
        | worker i => exact State.movesOn_stepWorker has i
        | writer =>
          refine .of_fanout .writes ?_ rfl
          show (s.recorder.map _) = _
          rw [has]
          rfl
        | keeper =>
          have step : (s.stepKeeper S).recorder
              = some (if r.finished then r else r.runDue (S.calendar s.now) s.now 1) := by
            show (s.recorder.map _) = _
            rw [has]
            rfl
          refine .of_fanout ?_ step rfl
          split
          · exact .rests
          · exact .tends _ _ _
        | watcher | cycle | restart | confirmation => rcases does with does | does <;> cases does
    · have apart := chain.isApart fun t feeds ↦ other t (.inl feeds)
      have recorder := chain.recorder fun t records ↦ other t (.inr records)
      exact .inr ⟨.of_fanout .rests (recorder.trans has) apart.fanout,
        chain.host_cases (other .host (.inl rfl))⟩

end Shared

end Supervision
