import Mathlib.Data.List.Basic
import Supervision.Proofs.Supervisor.Meek

/-!
# The beats of a cycle

What a cycle does shows in its beats: it calls a hook, a hook of it ends, its resource moves
(`Beat`). They are read off what it enters into the chronicle, in order (`State.beats`).

`Cycle.IsWhole` says which beats make a whole cycle. It either calls no hook, or it calls the start
hook and then, with or without serving the resource, the stop hook (`Cycle.UntilStop`); the last
beat settles the resource, unless a hook has done so. What may come before the end is said by where
the cycle stands (`Cycle.IsCourse`).

* `Cycle.IsWhole.hooks`, `Cycle.IsWhole.serves_iff`, `Cycle.IsWhole.settles` — which hooks a whole
  cycle calls, when it serves, and how it settles its resource.
-/

namespace Supervision

/-- A beat of a cycle. -/
inductive Beat where
  /-- It calls a hook. -/
  | calls (hook : Hook)
  /-- A hook of it ends. -/
  | returns (hook : Hook) (exit : Exit)
  /-- Its resource moves. -/
  | moves (target : Status)
deriving DecidableEq

/-- The beat of cycle `i` that a happening is which it enters. -/
def Happening.beat? (i : Nat) : Happening → Option Beat
  | .called k hook => if k = i then some (.calls hook) else none
  | .returned k hook exit => if k = i then some (.returns hook exit) else none
  | .published e => e.target?.map .moves
  | _ => none

/-- Where a cycle leaves its resource by how its hooks have ended. -/
def Exit.verdict : Exit → Status
  | .clean | .error .cancelled => .stopped
  | .error (.failed _) | .panicked _ => .failed
  | .error (.fatal _) => .crashed

theorem Exit.target?_mark (exit : Exit) : exit.mark.target? = some exit.verdict := by
  cases exit with
  | clean => rfl
  | panicked message => rfl
  | error e => cases e <;> rfl

theorem Exit.isTerminal_verdict (exit : Exit) : exit.verdict.isTerminal = true := by
  cases exit with
  | clean => rfl
  | panicked message => rfl
  | error e => cases e <;> rfl

namespace Beat

/-- The status that a beat moves the resource to. -/
def move? : Beat → Option Status
  | moves target => some target
  | _ => none

/-- Where beats leave a resource that is in a status before them. -/
def leaves (status : Status) (beats : List Beat) : Status :=
  beats.foldl (fun status b ↦ b.move?.getD status) status

/-- The hooks that are called. -/
def hooks : List Beat → List Hook
  | [] => []
  | calls hook :: rest => hook :: hooks rest
  | _ :: rest => hooks rest

/-- How the hooks before the stop hook end. -/
def exits : List Beat → List Exit
  | [] => []
  | returns .stop _ :: rest => exits rest
  | returns _ exit :: rest => exit :: exits rest
  | _ :: rest => exits rest

/-- The moves that are made while a hook goes on; with `inside`, one does so at the beginning. -/
def movesWithin : (inside : Bool) → List Beat → List Status
  | _, [] => []
  | _, calls _ :: rest => movesWithin true rest
  | _, returns _ _ :: rest => movesWithin false rest
  | true, moves target :: rest => target :: movesWithin true rest
  | false, moves _ :: rest => movesWithin false rest

variable {status : Status} {beats more : List Beat} {own : List Status}

@[simp] theorem leaves_nil : leaves status [] = status := rfl

@[simp] theorem leaves_calls (hook : Hook) :
    leaves status (calls hook :: more) = leaves status more := rfl

@[simp] theorem leaves_returns (hook : Hook) (exit : Exit) :
    leaves status (returns hook exit :: more) = leaves status more := rfl

@[simp] theorem leaves_moves (target : Status) :
    leaves status (moves target :: more) = leaves target more := rfl

@[simp] theorem leaves_append :
    leaves status (beats ++ more) = leaves (leaves status beats) more := List.foldl_append

@[simp] theorem hooks_own : hooks (own.map moves ++ more) = hooks more := by
  induction own with
  | nil => rfl
  | cons target own ih => exact ih

@[simp] theorem exits_own : exits (own.map moves) = [] := by
  induction own with
  | nil => rfl
  | cons target own ih => exact ih

@[simp] theorem movesWithin_own :
    movesWithin true (own.map moves ++ more) = own ++ movesWithin true more := by
  induction own with
  | nil => rfl
  | cons target own ih => exact congrArg (target :: ·) ih

@[simp] theorem exits_append : exits (beats ++ more) = exits beats ++ exits more := by
  fun_induction exits beats with
  | case1 => rfl
  | case2 _ rest ih => exact ih
  | case3 hook exit rest other ih =>
    cases hook with
    | stop => exact absurd rfl other
    | _ => exact congrArg (exit :: ·) ih
  | case4 beat rest stop other ih =>
    cases beat with
    | returns hook exit => exact absurd rfl (other hook exit)
    | _ => exact ih

/-- What holds of the status before and of all that are moved to holds of the status after. -/
theorem leaves_of_moves {P : Status → Prop} (before : P status)
    (all : ∀ target, moves target ∈ beats → P target) : P (leaves status beats) := by
  induction beats generalizing status with
  | nil => exact before
  | cons beat beats ih =>
    have rest : ∀ target, moves target ∈ beats → P target :=
      fun target mem ↦ all target (List.mem_cons_of_mem _ mem)
    cases beat with
    | moves target => exact ih (all target List.mem_cons_self) rest
    | _ => exact ih before rest

end Beat

/-! ### Whole cycles -/

namespace Cycle

/-- The beats of a cycle from the call of its start hook to that of its stop hook; `exit` is how the
hooks have ended. -/
inductive UntilStop : List Beat → Exit → Prop where
  /-- The start hook has not ended in good order, or has moved the resource on. -/
  | unserved {own : List Status} {exit : Exit}
      (held : ¬ (exit = .clean ∧ Beat.leaves .starting (own.map .moves) = .starting)) :
      UntilStop (.calls .start :: own.map .moves ++ [.returns .start exit, .calls .stop]) exit
  /-- The start hook has ended in good order while the resource was starting. -/
  | served {own : List Status} {exit : Exit}
      (still : Beat.leaves .starting (own.map .moves) = .starting) (own' : List Status) :
      UntilStop (.calls .start :: own.map .moves ++
        [.returns .start .clean, .moves .running, .calls .serve] ++ own'.map .moves ++
        [.returns .serve exit, .calls .stop]) exit

/-- The beats with which a cycle settles a resource that it finds in a status. -/
def settling (exit : Exit) (status : Status) : List Beat :=
  if status.isTerminal then [] else [.moves exit.verdict]

/-- The beats of a cycle from its beginning to its end. -/
inductive IsWhole : List Beat → Prop where
  /-- What the resource depends on was not ready in time, or the cycle was told to end before. -/
  | unready {target : Status} (h : target = .stopped ∨ target = .failed) :
      IsWhole [.moves .starting, .moves target]
  | hooked {beats : List Beat} {exit : Exit} (until_ : UntilStop beats exit) (own : List Status)
      (result : Exit) :
      IsWhole (.moves .starting :: beats ++ own.map .moves ++ .returns .stop result ::
        settling exit (Beat.leaves .starting (beats ++ own.map .moves)))

/-- The beats of a cycle so far, by where it stands. -/
inductive IsCourse : CycleStage → List Beat → Prop where
  | fresh : IsCourse .fresh []
  | gated {wait? : Option Wait} : IsCourse (.gated wait?) [.moves .starting]
  | starts {acts : List Act} {wake : Option Nat} (own : List Status) :
      IsCourse (.inside .start acts wake .clean)
        (.moves .starting :: .calls .start :: own.map .moves)
  | serves {acts : List Act} {wake : Option Nat} {own : List Status}
      (still : Beat.leaves .starting (own.map .moves) = .starting) (own' : List Status) :
      IsCourse (.inside .serve acts wake .clean) (.moves .starting :: .calls .start ::
        own.map .moves ++ [.returns .start .clean, .moves .running, .calls .serve] ++
          own'.map .moves)
  | stops {acts : List Act} {wake : Option Nat} {beats : List Beat} {exit : Exit}
      (until_ : UntilStop beats exit) (own : List Status) :
      IsCourse (.inside .stop acts wake exit) (.moves .starting :: beats ++ own.map .moves)
  | finished {beats : List Beat} (whole : IsWhole beats) : IsCourse .finished beats

variable {beats : List Beat} {exit : Exit} {own : List Status} {status : Status}

/-- A cycle that has begun has moved its resource to starting first. -/
theorem IsCourse.exists_rest {stage : CycleStage} (h : IsCourse stage beats)
    (begun : stage ≠ .fresh) : ∃ rest, beats = .moves .starting :: rest := by
  cases h with
  | fresh => exact absurd rfl begun
  | finished whole => cases whole <;> exact ⟨_, rfl⟩
  | _ => exact ⟨_, rfl⟩

/-- A hook may move the resource. -/
theorem IsCourse.goesOn {hook : Hook} {acts left : List Act} {wake wake' : Option Nat}
    (h : IsCourse (.inside hook acts wake exit) beats) (own : List Status) :
    IsCourse (.inside hook left wake' exit) (beats ++ own.map .moves) := by
  cases h with
  | starts before =>
    have all : IsCourse (.inside .start left wake' .clean) _ := .starts (before ++ own)
    simpa using all
  | serves still before =>
    have all : IsCourse (.inside .serve left wake' .clean) _ := .serves still (before ++ own)
    simpa using all
  | stops until_ before =>
    have all : IsCourse (.inside .stop left wake' exit) _ := .stops until_ (before ++ own)
    simpa using all

@[simp] theorem hooks_settling : Beat.hooks (settling exit status) = [] := by
  unfold settling
  split <;> rfl

@[simp] theorem exits_settling : Beat.exits (settling exit status) = [] := by
  unfold settling
  split <;> rfl

@[simp] theorem movesWithin_settling : Beat.movesWithin false (settling exit status) = [] := by
  unfold settling
  split <;> rfl

@[simp] theorem returns_notMem_settling (hook : Hook) (result : Exit) :
    .returns hook result ∉ settling exit status := by
  unfold settling
  split <;> simp

theorem isTerminal_leaves_settling :
    (Beat.leaves status (settling exit status)).isTerminal = true := by
  unfold settling
  split
  · assumption
  · exact exit.isTerminal_verdict

/-- **A whole cycle calls no hook, or the start hook and then the stop hook**, and may serve in
between; each once. -/
theorem IsWhole.hooks (h : IsWhole beats) : Beat.hooks beats = [] ∨
    Beat.hooks beats = [.start, .stop] ∨ Beat.hooks beats = [.start, .serve, .stop] := by
  cases h with
  | unready h => exact .inl rfl
  | hooked until_ own result =>
    cases until_ with
    | unserved held => exact .inr (.inl (by simp [Beat.hooks]))
    | served still own' => exact .inr (.inr (by simp [Beat.hooks]))

/-- A whole cycle that has called a hook does not end before its stop hook. -/
theorem IsWhole.exists_returns_stop (h : IsWhole beats) (called : Beat.hooks beats ≠ []) :
    ∃ result, .returns .stop result ∈ beats := by
  cases h with
  | unready h => exact absurd rfl called
  | hooked until_ own result => exact ⟨result, by simp⟩

/-- The beats of a cycle that is in a hook are not those of a whole cycle. -/
theorem IsCourse.not_isWhole {hook : Hook} {acts : List Act} {wake : Option Nat}
    (h : IsCourse (.inside hook acts wake exit) beats) : ¬ IsWhole beats := by
  -- A hook was called, and the stop hook has not ended.
  have goesOn : Beat.hooks beats ≠ [] ∧ ∀ result, .returns .stop result ∉ beats := by
    cases h with
    | starts own => simp [Beat.hooks]
    | serves still own => simp [Beat.hooks]
    | stops until_ own => cases until_ <;> simp [Beat.hooks]
  intro whole
  obtain ⟨result, ended⟩ := whole.exists_returns_stop goesOn.1
  exact goesOn.2 result ended

/-- **A whole cycle serves exactly when its start hook ends in good order while the resource is
starting.** -/
theorem IsWhole.serves_iff (h : IsWhole beats) (status : Status) :
    .serve ∈ Beat.hooks beats ↔ ∃ before after,
      beats = before ++ .returns .start .clean :: after ∧
        Beat.leaves status before = .starting := by
  cases h with
  | unready h =>
    constructor
    · intro serves
      cases serves
    · rintro ⟨before, after, split, -⟩
      have mem : Beat.returns .start .clean ∈ before ++ Beat.returns .start .clean :: after :=
        List.mem_append_right _ List.mem_cons_self
      rw [← split] at mem
      simp at mem
  | @hooked _ exit until_ own result =>
    cases until_ with
    | @unserved own' _ held =>
      constructor
      · intro serves
        simp [Beat.hooks] at serves
      · rintro ⟨before, after, split, starting⟩
        -- The start hook ends once, so it is this end.
        have once : .moves .starting :: .calls .start :: own'.map .moves ++
            .returns .start exit :: (.calls .stop :: own.map .moves ++ .returns .stop result ::
              settling exit (Beat.leaves .starting (own'.map .moves ++ own.map .moves))) =
            before ++ .returns .start .clean :: after := by
          rw [← split]
          simp
        obtain ⟨rfl, clean, -⟩ :=
          (List.append_cons_inj_of_notMem (by simp) (by simp)).1 once
        cases clean
        exact absurd ⟨rfl, starting⟩ held
    | @served own' _ still own'' =>
      constructor
      · intro
        refine ⟨.moves .starting :: .calls .start :: own'.map .moves,
          .moves .running :: .calls .serve :: own''.map .moves ++ .returns .serve exit ::
            .calls .stop :: own.map .moves ++ .returns .stop result ::
              settling exit (Beat.leaves .running (own''.map .moves ++ own.map .moves)),
          ?_, still⟩
        simp
      · intro
        simp [Beat.hooks]

/-- A whole cycle leaves its resource settled. -/
theorem IsWhole.isTerminal (h : IsWhole beats) (status : Status) :
    (Beat.leaves status beats).isTerminal = true := by
  cases h with
  | unready h => rcases h with rfl | rfl <;> rfl
  | @hooked beats exit until_ own result =>
    simp only [List.cons_append, List.append_assoc, Beat.leaves_moves, Beat.leaves_append,
      Beat.leaves_returns]
    exact isTerminal_leaves_settling

theorem settling_of_unsettled (unsettled : status.isTerminal = false) :
    settling exit status = [.moves exit.verdict] := by
  unfold settling
  rw [unsettled]
  rfl

/-- The moves up to the call of the stop hook are made by the hooks, but for the one to running. -/
theorem UntilStop.moves (h : UntilStop beats exit) {target : Status}
    (mem : .moves target ∈ beats) :
    target = .running ∨ target ∈ Beat.movesWithin false beats := by
  cases h with
  | unserved held => exact .inr (by simpa [Beat.movesWithin] using mem)
  | served still own' => simpa [Beat.movesWithin, or_left_comm] using mem

theorem UntilStop.movesWithin_append (h : UntilStop beats exit) (more : List Beat) :
    Beat.movesWithin false (beats ++ more)
      = Beat.movesWithin false beats ++ Beat.movesWithin true more := by
  cases h with
  | unserved held => simp [Beat.movesWithin]
  | served still own' => simp [Beat.movesWithin]

theorem UntilStop.getLast?_exits (h : UntilStop beats exit) :
    (Beat.exits beats).getLast? = some exit := by
  cases h with
  | unserved held => simp [Beat.exits]
  | served still own' => simp [Beat.exits]

/-- The last of the beats settles the resource, and none before does. -/
def SettlesLast (front : List Beat) (target : Status) (beats : List Beat) : Prop :=
  beats = front ++ [.moves target] ∧ target.isTerminal = true ∧
    ∀ next, .moves next ∈ front → next.isTerminal = false

/-- **A whole cycle whose hooks have not settled the resource settles it with its last beat**, after
the stop hook has ended if it was called, and by how the hooks before that have ended. -/
theorem IsWhole.settles (h : IsWhole beats)
    (unsettled : ∀ target ∈ Beat.movesWithin false beats, target.isTerminal = false) :
    ∃ front target, SettlesLast front target beats ∧
      (Beat.hooks beats ≠ [] → ∃ result, .returns .stop result ∈ front) ∧
      ∀ exit, (Beat.exits beats).getLast? = some exit → target = exit.verdict := by
  cases h with
  | @unready target h =>
    refine ⟨[.moves .starting], target, ⟨rfl, ?_, ?_⟩, fun called ↦ absurd rfl called, nofun⟩
    · rcases h with rfl | rfl <;> rfl
    · intro next mem
      cases List.mem_singleton.1 mem
      rfl
  | @hooked beats exit until_ own result =>
    have within : ∀ target ∈ Beat.movesWithin false beats ++ own, target.isTerminal = false := by
      simpa [Beat.movesWithin, until_.movesWithin_append] using unsettled
    have moves : ∀ target, .moves target ∈ beats ++ own.map .moves → target.isTerminal = false := by
      intro target mem
      rcases List.mem_append.1 mem with mem | mem
      · rcases until_.moves mem with rfl | mem
        · rfl
        · exact within target (List.mem_append_left _ mem)
      · exact within target (List.mem_append_right _ (by simpa using mem))
    have unsettled : (Beat.leaves .starting (beats ++ own.map .moves)).isTerminal = false :=
      Beat.leaves_of_moves (P := fun status ↦ status.isTerminal = false) rfl moves
    refine ⟨.moves .starting :: (beats ++ own.map .moves) ++ [.returns .stop result], exit.verdict,
      ⟨?_, exit.isTerminal_verdict, ?_⟩, fun _ ↦ ⟨result, by simp⟩, fun exit' he ↦ ?_⟩
    · rw [settling_of_unsettled unsettled]
      simp
    · intro next mem
      rcases List.mem_append.1 mem with mem | mem
      · rcases List.mem_cons.1 mem with first | mem
        · cases first
          rfl
        · exact moves next mem
      · cases List.mem_singleton.1 mem
    · have exits : Beat.exits (.moves .starting :: beats ++ own.map .moves ++
          .returns .stop result :: settling exit (Beat.leaves .starting (beats ++ own.map .moves)))
            = Beat.exits beats := by
        simp [Beat.exits]
      rw [exits, until_.getLast?_exits] at he
      rw [Option.some.inj he]

/-- What a cycle has come to that has ended with these beats, when its resource was in a status
before and is in another after it. -/
structure HasRunItsCourse (before : Status) (done : List Beat) (after : Option Status) : Prop where
  /-- The beats are those of a whole cycle, and they say where the resource is. -/
  whole : IsWhole done
  leaves : after = some (Beat.leaves before done)
  /-- It calls no hook, or the start hook and the stop hook, or all three; each once. -/
  hooks : Beat.hooks done = [] ∨ Beat.hooks done = [.start, .stop] ∨
    Beat.hooks done = [.start, .serve, .stop]
  /-- It serves exactly when the start hook ends in good order while the resource is starting. -/
  serves : .serve ∈ Beat.hooks done ↔ ∃ front back,
    done = front ++ .returns .start .clean :: back ∧ Beat.leaves before front = .starting
  /-- It leaves the resource settled. -/
  settled : ∃ status, after = some status ∧ status.isTerminal = true
  /-- If no hook has settled the resource, it does so once and with its last beat, after the stop
  hook has ended if it was called, and by how the hooks before that have ended. -/
  settles : (∀ target ∈ Beat.movesWithin false done, target.isTerminal = false) →
    ∃ front target, SettlesLast front target done ∧
      (Beat.hooks done ≠ [] → ∃ result, .returns .stop result ∈ front) ∧
      ∀ exit, (Beat.exits done).getLast? = some exit → target = exit.verdict

/-- A whole cycle has run its course. -/
theorem IsWhole.hasRunItsCourse {done : List Beat} (h : IsWhole done)
    (before : Status) : HasRunItsCourse before done (some (Beat.leaves before done)) :=
  ⟨h, rfl, h.hooks, h.serves_iff before, ⟨_, rfl, h.isTerminal before⟩, h.settles⟩

end Cycle

end Supervision
