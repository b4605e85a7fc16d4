import Supervision.Supervisor.Turns

/-!
# Simulating a supervisor

A caller asks for one run after the other and waits for each to end, but no longer than a limit; a
run that lasts as long as that is given up. Meanwhile a visitor acts at set moments. After the last
run the visitor leaves, and what can still be done at that moment is done.

The clock moves on only when nobody can go on, to the next moment at which somebody does.
-/

namespace Supervision

/-- A supervisor that takes turns with a visitor and a caller. -/
structure Simulation where
  /-- The supervisor, its visitor, and whose turn it is. -/
  turns : Turns
  /-- How long the caller waits for a run, in milliseconds. -/
  limit : Nat
  /-- Runs that have not ended. -/
  calls : Nat
  /-- When the caller asked for the run in progress. -/
  began : Nat
  /-- How the runs ended, and when; nothing for a run that was given up. -/
  ends : Array (Option RunEnd × Nat) := #[]

namespace Simulation

/-- The moment. -/
def now (m : Simulation) : Nat := m.turns.state.now

/-- The supervisor. -/
def state (m : Simulation) : State := m.turns.state

/-- The caller asks for a run, unless he has had all of them. -/
def call (m : Simulation) : Simulation :=
  if m.calls = 0 then { m with turns := m.turns.dismiss .visitor }
  else
    { m with
      turns := m.turns.change (·.undergo .call)
      began := m.now }

/-- A run has ended, or is given up. -/
def conclude (result : Option RunEnd) (m : Simulation) : Simulation :=
  let turns := if result.isSome then m.turns
    else (m.turns.dismiss (.task .host)).change (·.undergo .abandon)
  { m with turns := turns, calls := m.calls - 1, ends := m.ends.push (result, m.now) }.call

/-- One step: of the one whose turn it is, of the caller, or of time. -/
def step (S : Setup) (m : Simulation) : Simulation :=
  let deadline := m.began + m.limit
  if m.calls ≠ 0 ∧ deadline ≤ m.now then m.conclude none
  else if !m.turns.isSettled then { m with turns := m.turns.next S }
  else if m.turns.hasSignal then { m with turns := m.turns.hear }
  else if m.calls = 0 then m
  else
    match m.state.host with
    | .finished result => m.conclude (some result)
    | _ =>
      let moment := (m.turns.timer?.map (min deadline)).getD deadline
      { m with turns := m.turns.passTo moment }

/-- All runs have ended, and nothing more can be done at that moment. -/
def isOver (m : Simulation) : Bool := m.calls = 0 && m.turns.isSettled

/-- Goes on until all runs have ended, in at most `fuel` steps. -/
def run (S : Setup) : Nat → Simulation → Simulation
  | 0, m => m
  | fuel + 1, m => if m.isOver then m else run S fuel (m.step S)

/-- The first call of a number of runs on a supervisor in a state, with an agenda for the visitor,
and with what the visitor does even before that. -/
def start (S : Setup) (s : State) (limit calls : Nat) (before : List Errand)
    (agenda : List (Nat × Errand)) : Simulation :=
  let workers := (List.range S.subscribers.size).map fun i ↦ Actor.task (.worker i)
  let recording := if s.recorder.isSome then [Actor.task .writer, .task .keeper] else []
  let turns : Turns := { state := s, waiting := recording ++ workers }
  let turns := before.foldl (fun t e ↦ t.visit e) turns
  let m := call { turns := turns, limit := limit, calls := calls, began := s.now }
  { m with
    turns := { m.turns with agenda := agenda, queue := m.turns.queue ++ [.visitor] } }

end Simulation

end Supervision
