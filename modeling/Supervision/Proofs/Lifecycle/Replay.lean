import Supervision.Lifecycle.Replay

/-!
# A lifecycle is what its events tell

Whatever marks are made, the events that are published tell the lifecycle that comes of them, and
nothing of a lifecycle is left untold (`Lifecycle.Tells`). The news of a move is published when all
of it is in place: whoever hears it finds the status, the failures and the readiness as they are
told (`Lifecycle.IsCurrent`).

A refused mark leaves no trace; one that is carried out publishes the move that it asks for, and no
other (`Lifecycle.Answers`).

* `Lifecycle.tells_of_mark` — one mark; `Lifecycle.Tells.trans` — one after the other.
* `Lifecycle.marks_are_told` — every sequence of marks.
-/

namespace Supervision

/-- The events of one resource, each move of which begins where the one before has ended. -/
def IsChainFrom : Status → List Event → Prop
  | _, [] => True
  | s, e :: es =>
    match e.move with
    | some m => m.source = s ∧ IsChainFrom m.target es
    | none => IsChainFrom s es

/-- The status after events of one resource. -/
def statusAfter (s : Status) (events : List Event) : Status :=
  events.foldl (fun s e ↦ (e.target?).getD s) s

/-- Why a resource cannot serve after a move that ends a cycle. -/
def Move.downReason (m : Move) : String := (m.failure.map (·.message)).getD "stopped"

theorem IsChainFrom.append {s : Status} {es es' : List Event} (h : IsChainFrom s es)
    (h' : IsChainFrom (statusAfter s es) es') : IsChainFrom s (es ++ es') := by
  induction es generalizing s with
  | nil => exact h'
  | cons e es ih =>
    cases hm : e.move with
    | none =>
      simp only [statusAfter, List.foldl_cons, Event.target?, hm] at h'
      simp only [IsChainFrom, List.cons_append, hm] at h ⊢
      exact ih h h'
    | some m =>
      simp only [statusAfter, List.foldl_cons, Event.target?, hm] at h'
      simp only [IsChainFrom, List.cons_append, hm] at h ⊢
      exact ⟨h.1, ih h.2 h'⟩

namespace Lifecycle

variable {c c' c'' : Lifecycle} {published more : List Publication}

theorem status_replayAll (c : Lifecycle) (events : List Event) :
    (c.replayAll events).status = statusAfter c.status events := by
  induction events generalizing c with
  | nil => rfl
  | cons e es ih =>
    rw [replayAll_cons, ih]
    have first : (c.replay e).status = (e.target?).getD c.status := by
      unfold replay Event.target?
      cases e.move with
      | some m => rfl
      | none => cases e.ready <;> rfl
    rw [first]
    rfl

/-! ### What is published tells what comes of it -/

/-- A publication that is part of what follows `c` shows a lifecycle in which its event is included
already: all that was published up to then tells it, and after a move that ends a cycle the resource
is down for the reason that belongs to it. -/
structure IsCurrent (c : Lifecycle) (before : List Publication) (x : Publication) (m : Move) :
    Prop where
  state : x.state = c.replayAll ((before ++ [x]).map (·.event))
  down : m.target.isTerminal = true → x.state.readiness = .down m.downReason
  reported : m.target = .failed ∨ m.target = .crashed →
    ∃ f, m.failure = some f ∧ x.state.lastFailure = some f

/-- What is published from `c` on tells that `c'` comes of it: the events lead there, their moves
follow one from the other, and each move is told when all of it is in place. -/
structure Tells (c : Lifecycle) (published : List Publication) (c' : Lifecycle) : Prop where
  replay : c.replayAll (published.map (·.event)) = c'
  chain : IsChainFrom c.status (published.map (·.event))
  kinds : ∀ x ∈ published, x.event.kind = .transition ↔ x.event.move.isSome = true
  current : ∀ before x behind m, published = before ++ x :: behind → x.event.move = some m →
    c.IsCurrent before x m

theorem Tells.refl (c : Lifecycle) : c.Tells [] c where
  replay := rfl
  chain := trivial
  kinds x hx := absurd hx List.not_mem_nil
  current before x behind m h := by simp at h

/-- Publications without a move tell of readiness only. -/
theorem Tells.of_quiet {x : Publication} (move : x.event.move = none)
    (kind : x.event.kind ≠ .transition) (replay : c.replay x.event = c') : c.Tells [x] c' where
  replay := replay
  chain := by simp [IsChainFrom, move]
  kinds y hy := by
    cases List.mem_singleton.1 hy
    simp [move, kind]
  current before y behind m h hm := by
    have hy : y ∈ [x] := h ▸ List.mem_append_right before List.mem_cons_self
    cases List.mem_singleton.1 hy
    rw [move] at hm
    cases hm

/-- **What is told first and what is told next tell the whole.** -/
theorem Tells.trans (h : c.Tells published c') (h' : c'.Tells more c'') :
    c.Tells (published ++ more) c'' where
  replay := by rw [List.map_append, replayAll_append, h.replay, h'.replay]
  chain := by
    have status : statusAfter c.status (published.map (·.event)) = c'.status := by
      rw [← status_replayAll, h.replay]
    rw [List.map_append]
    exact h.chain.append (status ▸ h'.chain)
  kinds x hx := by
    rcases List.mem_append.1 hx with hx | hx
    · exact h.kinds x hx
    · exact h'.kinds x hx
  current before x behind m split hm := by
    -- The publication belongs to the first part, or all of the first part stands before it.
    rcases List.append_eq_append_iff.1 split with ⟨late, rfl, hlate⟩ | ⟨early, hearly, rest⟩
    · have current := h'.current late x behind m hlate hm
      refine ⟨?_, current.down, current.reported⟩
      have told : c.replayAll ((published ++ (late ++ [x])).map (·.event))
          = c'.replayAll ((late ++ [x]).map (·.event)) := by
        rw [List.map_append, replayAll_append, h.replay]
      rw [List.append_assoc, told, current.state]
    · cases early with
      | nil =>
        rw [List.append_nil] at hearly
        have current := h'.current [] x behind m rest.symm hm
        refine ⟨?_, current.down, current.reported⟩
        have told : c.replayAll ((published ++ [x]).map (·.event))
            = c'.replayAll ([x].map (·.event)) := by
          rw [List.map_append, replayAll_append, h.replay]
        rw [← hearly, told, current.state, List.nil_append]
      | cons y early =>
        obtain ⟨rfl, -⟩ := List.cons.inj rest
        exact h.current before x early m hearly hm

/-! ### One mark -/

theorem tells_setReadiness (c : Lifecycle) (r : Readiness) :
    c.Tells (c.setReadiness r).2 (c.setReadiness r).1 := by
  unfold setReadiness
  split
  · exact .refl c
  · exact .of_quiet rfl (by nofun) rfl

theorem replay_transition (c : Lifecycle) (source target : Status) (failure : Option Failure) :
    c.replay (.transition ⟨c.name, source, target, failure⟩) = c.moved target failure := by
  have count : c.failures + (if target = .failed then 1 else 0)
      = if target = .failed then c.failures + 1 else c.failures := by split <;> rfl
  have last : (if failure.isSome then failure else c.lastFailure) = failure.or c.lastFailure := by
    cases failure <;> rfl
  simp only [replay, Event.transition, moved, count, last]

/-- A move that reports its failure leaves a resource down whose cycle it ends. -/
theorem readinessAfter?_of_isTerminal {m : Move}
    (reported : m.target = .failed ∨ m.target = .crashed → m.failure.isSome = true)
    (terminal : m.target.isTerminal = true) :
    readinessAfter? m.target m.failure = some (.down m.downReason) := by
  obtain ⟨resource, source, target, failure⟩ := m
  cases failure with
  | some f => rfl
  | none => cases target <;> simp_all [Status.isTerminal, readinessAfter?, Move.downReason]

/-- The news of a move, told of a lifecycle that has moved and has the readiness that the move
leaves behind. -/
theorem tells_transition {m : Move} (name : m.resource = c.name) (source : m.source = c.status)
    (reported : m.target = .failed ∨ m.target = .crashed → m.failure.isSome = true)
    (ready : ∀ r, readinessAfter? m.target m.failure = some r → c.readiness = r) :
    c.Tells [⟨.transition m, c.moved m.target m.failure⟩] (c.moved m.target m.failure) := by
  obtain ⟨resource, source', target, failure⟩ := m
  cases name
  cases source
  have replayed : c.replay (.transition ⟨c.name, c.status, target, failure⟩)
      = c.moved target failure := replay_transition c c.status target failure
  refine ⟨replayed, ⟨rfl, trivial⟩, fun x hx ↦ ?_, fun before x behind m split hm ↦ ?_⟩
  · cases List.mem_singleton.1 hx
    exact ⟨fun _ ↦ rfl, fun _ ↦ rfl⟩
  · obtain ⟨rfl, rfl, rfl⟩ : before = [] ∧
        x = ⟨.transition ⟨c.name, c.status, target, failure⟩, c.moved target failure⟩ ∧
        behind = [] := by
      simpa [List.singleton_eq_append_iff] using split
    cases hm
    refine ⟨replayed.symm, fun terminal ↦ ?_, fun ends ↦ ?_⟩
    · exact ready _ (readinessAfter?_of_isTerminal reported terminal)
    · obtain ⟨f, rfl⟩ := Option.isSome_iff_exists.1 (reported ends)
      exact ⟨f, rfl, rfl⟩

/-- A move tells what it changes of the readiness, and then itself. -/
theorem tells_of_move {target : Status} {failure : Option Failure}
    (reported : target = .failed ∨ target = .crashed → failure.isSome = true)
    (h : c.move target failure = .ok (c', published)) :
    c.Tells published c' ∧
      (published.map (·.event)).filter (·.kind = .transition)
        = [.transition ⟨c.name, c.status, target, failure⟩] := by
  unfold move at h
  split at h
  · cases hr : readinessAfter? target failure with
    | none =>
      rw [hr] at h
      cases h
      have none : ∀ r, readinessAfter? target failure = some r → c.readiness = r := by
        intro r h
        rw [hr] at h
        cases h
      exact ⟨tells_transition (m := ⟨_, _, _, _⟩) rfl rfl reported none, rfl⟩
    | some r =>
      -- The readiness is set after the status and told before it, so it is told of `down`.
      have down : ∀ r', readinessAfter? target failure = some r' →
          ({ c with readiness := r } : Lifecycle).readiness = r' := by
        intro r' h
        rw [hr] at h
        exact Option.some.inj h
      have moves := tells_transition (c := { c with readiness := r })
        (m := ⟨c.name, c.status, target, failure⟩) rfl rfl reported down
      rw [hr] at h
      simp only [setReadiness] at h
      split at h
      · rename_i same
        have kept : ({ c with readiness := r } : Lifecycle) = c := by rw [← same]; rfl
        cases h
        rw [kept] at moves
        exact ⟨moves, rfl⟩
      · cases h
        exact ⟨.trans (.of_quiet rfl (by nofun) rfl) moves, rfl⟩
  · cases h

/-- **What one mark publishes tells what comes of it**, and its move is told once. -/
theorem tells_of_mark {m : Mark} (h : c.mark m = .ok (c', published)) :
    c.Tells published c' ∧
      (published.map (·.event)).filter (·.kind = .transition)
        = m.target?.toList.map fun target ↦
            .transition ⟨c.name, c.status, target, m.failure?⟩ := by
  have ready : ∀ {r}, .ok (c.setReadiness r) = (.ok (c', published) : Except IllegalMove _) →
      c.Tells published c' ∧ (published.map (·.event)).filter (·.kind = .transition) = [] := by
    intro r h
    have told := tells_setReadiness c r
    have same : c.setReadiness r = (c', published) := Except.ok.inj h
    rw [same] at told
    refine ⟨told, ?_⟩
    unfold setReadiness at same
    split at same <;> cases same <;> rfl
  cases m with
  | starting => exact tells_of_move (by simp) h
  | running => exact tells_of_move (by simp) h
  | stopped => exact tells_of_move (by simp) h
  | failed f => exact tells_of_move (fun _ ↦ rfl) h
  | crashed f => exact tells_of_move (fun _ ↦ rfl) h
  | ready =>
    simp only [mark, setReady] at h
    split at h
    · cases h
      exact ⟨.refl c, rfl⟩
    · exact ready h
  | notReady reason => exact ready h

/-! ### Marks one after the other -/

theorem markAll_append (ms ms' : List Mark) (c : Lifecycle) :
    markAll (ms ++ ms') c = ((markAll ms' (markAll ms c).1).1,
      (markAll ms c).2 ++ (markAll ms' (markAll ms c).1).2) := by
  induction ms generalizing c with
  | nil => rfl
  | cons m ms ih =>
    simp only [List.cons_append, markAll]
    cases c.mark m with
    | error e => exact ih c
    | ok r =>
      obtain ⟨c', published⟩ := r
      simp only [ih c', List.append_assoc]

/-- **Whatever marks are made, what they publish tells what comes of them.** -/
theorem tells_markAll (ms : List Mark) (c : Lifecycle) :
    c.Tells (markAll ms c).2 (markAll ms c).1 := by
  induction ms generalizing c with
  | nil => exact .refl c
  | cons m ms ih =>
    unfold markAll
    cases h : c.mark m with
    | error e => exact ih c
    | ok r =>
      obtain ⟨c', published⟩ := r
      exact (tells_of_mark h).1.trans (ih c')

theorem name_replay (c : Lifecycle) (e : Event) : (c.replay e).name = c.name := by
  unfold replay
  cases e.move with
  | some m => rfl
  | none => cases e.ready <;> rfl

theorem name_replayAll (c : Lifecycle) (events : List Event) :
    (c.replayAll events).name = c.name := by
  induction events generalizing c with
  | nil => rfl
  | cons e es ih => rw [replayAll_cons, ih, name_replay]

theorem name_markAll (ms : List Mark) (c : Lifecycle) : (markAll ms c).1.name = c.name := by
  rw [← (tells_markAll ms c).replay, name_replayAll]

/-- What one more mark does to a lifecycle that has been marked before. -/
structure Answers (name : String) (ms : List Mark) (m : Mark) : Prop where
  /-- An illegal move is refused: nothing changes, and nothing is published. -/
  refused : ∀ target, m.target? = some target →
    (markAll ms (new name)).1.status.allows target = false →
    (∃ e, (markAll ms (new name)).1.mark m = .error e) ∧
      markAll (ms ++ [m]) (new name) = markAll ms (new name)
  /-- A legal move is carried out, and published once. -/
  moved : ∀ target, m.target? = some target →
    (markAll ms (new name)).1.status.allows target = true →
    ∃ c' more, (markAll ms (new name)).1.mark m = .ok (c', more) ∧
      markAll (ms ++ [m]) (new name) = (c', (markAll ms (new name)).2 ++ more) ∧
      (more.map (·.event)).filter (·.kind = .transition)
        = [.transition ⟨name, (markAll ms (new name)).1.status, target, m.failure?⟩]
  /-- Readiness is always granted, and no move is published for it. -/
  steady : m.target? = none →
    ∃ c' more, (markAll ms (new name)).1.mark m = .ok (c', more) ∧
      markAll (ms ++ [m]) (new name) = (c', (markAll ms (new name)).2 ++ more) ∧
      (more.map (·.event)).filter (·.kind = .transition) = []

theorem markAll_concat_of_error {ms : List Mark} {m : Mark} {e : IllegalMove}
    (h : (markAll ms c).1.mark m = .error e) : markAll (ms ++ [m]) c = markAll ms c := by
  rw [markAll_append]
  simp [markAll, h]

theorem markAll_concat_of_ok {ms : List Mark} {m : Mark}
    (h : (markAll ms c).1.mark m = .ok (c', more)) :
    markAll (ms ++ [m]) c = (c', (markAll ms c).2 ++ more) := by
  rw [markAll_append]
  simp [markAll, h]

theorem mark_eq_ok_of_legal {m : Mark}
    (legal : ∀ target, m.target? = some target → c.status.allows target = true) :
    ∃ c' more, c.mark m = .ok (c', more) := by
  cases h : c.mark m with
  | ok r => exact ⟨r.1, r.2, rfl⟩
  | error e =>
    obtain ⟨s, hs, illegal⟩ := mark_eq_error_iff.1 ⟨e, h⟩
    rw [legal s hs] at illegal
    cases illegal

theorem answers (name : String) (ms : List Mark) (m : Mark) : Answers name ms m where
  refused target htarget illegal := by
    obtain ⟨e, he⟩ := mark_eq_error_iff.2 ⟨target, htarget, illegal⟩
    exact ⟨⟨e, he⟩, markAll_concat_of_error he⟩
  moved target htarget legal := by
    have all : ∀ s, m.target? = some s → (markAll ms (new name)).1.status.allows s = true := by
      intro s hs
      rw [htarget] at hs
      exact Option.some.inj hs ▸ legal
    obtain ⟨c', more, h⟩ := mark_eq_ok_of_legal all
    refine ⟨c', more, h, markAll_concat_of_ok h, ?_⟩
    rw [(tells_of_mark h).2, htarget, name_markAll]
    rfl
  steady hnone := by
    have all : ∀ s, m.target? = some s → (markAll ms (new name)).1.status.allows s = true := by
      intro s hs
      rw [hnone] at hs
      cases hs
    obtain ⟨c', more, h⟩ := mark_eq_ok_of_legal all
    refine ⟨c', more, h, markAll_concat_of_ok h, ?_⟩
    rw [(tells_of_mark h).2, hnone]
    rfl

/-- **A lifecycle is the replay of its events**: whatever marks are made of a new one, what is
published tells what comes of them, and one more mark is refused without a trace or published
once. -/
theorem marks_are_told (name : String) (ms : List Mark) :
    (new name).Tells (markAll ms (new name)).2 (markAll ms (new name)).1 ∧
      ∀ m, Answers name ms m :=
  ⟨tells_markAll ms (new name), answers name ms⟩

example :
    (markAll [.starting, .ready, .failed (.plain "task" "lost"), .running, .starting, .running,
      .stopped, .starting] (new "a")).1
      = ⟨"a", .stopped, .down "stopped", 1, some (.plain "task" "lost")⟩ := by decide

end Lifecycle

end Supervision
