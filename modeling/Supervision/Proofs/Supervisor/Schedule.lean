import Supervision.Supervisor.Step

/-!
# Schedules

A schedule says which task goes on next, or what is done from outside. Whether it can be carried out
is decided by doing it (`State.isPlayable`); if it can, it leads to a state that a supervisor
reaches (`State.reaches_play`). No time passes in it; between two schedules it may, when nobody can
go on (`State.reaches_passTo`).
-/

namespace Supervision

/-- What happens next in a schedule. -/
inductive Cue where
  | turn (t : Task)
  | deed (d : Deed)

/-- A supervisor of one resource, which restarts it at most three times, at once, and waits for it
100 milliseconds at the end. -/
def Setup.single (behaviour : Nat → Behaviour) : Setup where
  settings := { Settings.standard with
    maxRestarts := 3
    backoff := { base := .ofSecs 0, multiplier := 1.0, max := .ofSecs 60, jitter := .none }
    grace := .ofMillis 100 }
  posts := #[{ name := "a", needs := [], behaviour := behaviour }]

/-- Its resource ends when it is told to. -/
def Setup.obedient : Setup := .single fun _ ↦ { serve := [.untilCancelled] }

/-- Its resource marks itself as failed and then hangs, even when it is told to end. -/
def Setup.stubborn : Setup :=
  .single fun _ ↦ { serve := [.mark (.failed (.plain "resource_failed" "lost")), .hang] }

/-- The first cycle fails, and the watcher takes all that was said of it off the bus. -/
def Cue.failure : List Cue :=
  .replicate 4 (.turn (.cycle 0)) ++ .replicate 5 (.turn (.watcher 0))

/-- Turns of tasks, each as often as it says. -/
def Cue.turns (tasks : List (Task × Nat)) : List Cue :=
  tasks.flatMap fun (t, n) ↦ .replicate n (.turn t)

theorem Cue.deed_notMem_turns (d : Deed) (tasks : List (Task × Nat)) : .deed d ∉ turns tasks := by
  intro mem
  obtain ⟨⟨t, n⟩, -, mem⟩ := List.mem_flatMap.1 mem
  cases List.eq_of_mem_replicate mem

namespace State

/-- Before the first run, on a bus of the usual size and without a record store. -/
def atRest (S : Setup) : State := .initial S (.ofCapacity 1024) none 0

/-- The first run is asked for. -/
def asked (S : Setup) : State := (atRest S).undergo .call

/-- The state after a cue. -/
def follow (S : Setup) (s : State) : Cue → State
  | .turn t => s.step S t
  | .deed d => s.undergo d

/-- The state after a schedule. -/
def play (S : Setup) : List Cue → State → State
  | [], s => s
  | c :: rest, s => play S rest (s.follow S c)

/-- Every task in a schedule can go on when its turn comes. -/
def isPlayable (S : Setup) : List Cue → State → Bool
  | [], _ => true
  | c :: rest, s =>
    (match c with
      | .turn t => s.isEnabled t
      | .deed _ => true) && isPlayable S rest (s.follow S c)

/-- The stubborn resource has failed once, and the watcher has nothing left to receive. -/
def stubbornFailed : State :=
  ((asked .stubborn).stepHost .stubborn).play .stubborn Cue.failure

theorem reaches_asked (S : Setup) {admits : Deed → Prop} (call : admits .call) :
    Reaches S admits (atRest S) (asked S) :=
  .step (.refl _) (.deed .call call)

/-- A cue that can be carried out is a step. -/
theorem step_follow {S : Setup} {admits : Deed → Prop} {c : Cue} {rest : List Cue} {s : State}
    (h : isPlayable S (c :: rest) s = true) (admitted : ∀ d, c = .deed d → admits d) :
    Step S admits s (s.follow S c) := by
  obtain ⟨first, -⟩ := Bool.and_eq_true_iff.1 h
  cases c with
  | turn t => exact .turn t first
  | deed d => exact .deed d (admitted d rfl)

/-- What a schedule leads to can be reached. -/
theorem reaches_play {S : Setup} {admits : Deed → Prop} {cues : List Cue} {s₀ s : State}
    (before : Reaches S admits s₀ s) (h : isPlayable S cues s = true)
    (admitted : ∀ d, .deed d ∈ cues → admits d) : Reaches S admits s₀ (s.play S cues) := by
  induction cues generalizing s with
  | nil => exact before
  | cons c rest ih =>
    refine ih (before.step (step_follow h fun d hd ↦ admitted d ?_))
      (Bool.and_eq_true_iff.1 h).2 fun d hd ↦ admitted d (List.mem_cons_of_mem _ hd)
    rw [hd]
    exact List.mem_cons_self

/-- The tasks that there are. -/
def tasks (s : State) : List Task :=
  [.host, .relay, .writer, .keeper] ++ (List.range s.watchers.size).map .watcher ++
    (List.range s.fanout.workers.size).map .worker ++ (List.range s.cycles.size).map .cycle ++
    (List.range s.restarts.size).map .restart ++
    (List.range s.confirmations.size).map .confirmation

/-- Nobody can go on before a moment. -/
def isQuietUntil (moment : Nat) (s : State) : Bool :=
  decide (s.now < moment) &&
    s.tasks.all fun t ↦ !s.isEnabled t && (s.timer? t).all (moment ≤ ·)

/-- A task that there is not neither goes on nor waits for a moment. -/
theorem idle_of_notMem_tasks {s : State} {t : Task} (h : t ∉ s.tasks) :
    s.isEnabled t = false ∧ s.timer? t = none := by
  cases t with
  | host => simp [tasks] at h
  | relay => simp [tasks] at h
  | writer => simp [tasks] at h
  | keeper => simp [tasks] at h
  | watcher i =>
    have none : s.watchers[i]? = none := by simpa [tasks] using h
    simp [isEnabled, watcherIsEnabled, timer?, none]
  | worker i =>
    have none : s.fanout.workers[i]? = none := by simpa [tasks] using h
    simp [isEnabled, Fanout.isEnabled, timer?, none]
  | cycle i =>
    have none : s.cycles[i]? = none := by simpa [tasks] using h
    simp [isEnabled, cycleIsEnabled, timer?, none]
  | restart i =>
    have none : s.restarts[i]? = none := by simpa [tasks] using h
    simp [isEnabled, restartIsEnabled, timer?, none]
  | confirmation i =>
    have none : s.confirmations[i]? = none := by simpa [tasks] using h
    simp [isEnabled, confirmationIsEnabled, timer?, none]

/-- When nobody can go on before a moment, time passes up to it. -/
theorem step_passTo {S : Setup} {admits : Deed → Prop} {s : State} {moment : Nat}
    (h : s.isQuietUntil moment = true) : Step S admits s (s.passTo moment) := by
  obtain ⟨later, quiet⟩ := Bool.and_eq_true_iff.1 h
  have each : ∀ t, s.isEnabled t = false ∧ (s.timer? t).all (moment ≤ ·) = true := by
    intro t
    by_cases known : t ∈ s.tasks
    · have quiet := List.all_eq_true.1 quiet t known
      simpa using quiet
    · obtain ⟨idle, timer⟩ := idle_of_notMem_tasks known
      exact ⟨idle, by rw [timer]; rfl⟩
  refine .pass moment (of_decide_eq_true later) (fun t ↦ (each t).1) fun t m hm ↦ ?_
  have timer := (each t).2
  rw [hm] at timer
  exact of_decide_eq_true timer

theorem reaches_passTo {S : Setup} {admits : Deed → Prop} {s₀ s : State} {moment : Nat}
    (before : Reaches S admits s₀ s) (h : s.isQuietUntil moment = true) :
    Reaches S admits s₀ (s.passTo moment) :=
  before.step (step_passTo h)

end State

end Supervision
