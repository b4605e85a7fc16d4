import Supervision.Event
import Supervision.Fault

/-!
# The lifecycle of a resource

A lifecycle holds a resource's status, its readiness with a reason, how often it failed and its
latest failure. It changes by **marks** only, and every change is published: a legal move of the
status as one transition, a change of readiness as one readiness event. A mark that would move the
status illegally changes nothing and publishes nothing.

Each publication carries the lifecycle as it is at that moment (`Publication`), so "already
included when it is published" is a statement about data.

* `mark_eq_error_iff` — a mark is refused exactly when its move is illegal.
* Entering `failed` or `crashed` drops readiness with the failure's message as reason, entering
  `stopped` with the reason `stopped`.
-/

namespace Supervision

/-- Whether a resource can serve, and if not, why. -/
structure Readiness where
  /-- It can serve. -/
  ready : Bool
  /-- Why it cannot, or could not at last. -/
  reason : Option String
deriving DecidableEq, Inhabited

namespace Readiness

/-- Before the first start. -/
def initial : Readiness := ⟨false, some "not started"⟩

/-- It can serve. -/
def up : Readiness := ⟨true, none⟩

/-- It cannot serve, for a reason. -/
def down (reason : String) : Readiness := ⟨false, some reason⟩

end Readiness

/-- What a resource is told to become. -/
inductive Mark where
  | starting
  | running
  | stopped
  | failed (detail : Failure)
  | crashed (detail : Failure)
  | ready
  | notReady (reason : String)
deriving DecidableEq

namespace Mark

/-- The status a mark moves to. -/
def target? : Mark → Option Status
  | starting => some .starting
  | running => some .running
  | stopped => some .stopped
  | failed _ => some .failed
  | crashed _ => some .crashed
  | ready | notReady _ => none

/-- The failure a mark reports. -/
def failure? : Mark → Option Failure
  | failed detail | crashed detail => some detail
  | _ => none

end Mark

/-- State of one resource. -/
structure Lifecycle where
  /-- Name of the resource. -/
  name : String
  /-- Its status. -/
  status : Status
  /-- Its readiness. -/
  readiness : Readiness
  /-- How often it failed. -/
  failures : Nat
  /-- Its latest failure or crash. -/
  lastFailure : Option Failure
deriving DecidableEq, Inhabited

/-- An event together with the lifecycle at the moment it is published. -/
structure Publication where
  /-- The event. -/
  event : Event
  /-- The lifecycle at that moment. -/
  state : Lifecycle
deriving DecidableEq

namespace Lifecycle

/-- A resource before its first start. -/
def new (name : String) : Lifecycle := ⟨name, .notStarted, .initial, 0, none⟩

/-- It can serve. -/
def isReady (c : Lifecycle) : Bool := c.readiness.ready

/-- Changes the readiness; publishes only if that changes anything. -/
def setReadiness (r : Readiness) (c : Lifecycle) : Lifecycle × List Publication :=
  if c.readiness = r then (c, [])
  else
    let c' := { c with readiness := r }
    (c', [⟨.readiness c.name r.ready r.reason, c'⟩])

/-- Becomes ready; being ready already, keeps its state. -/
def setReady (c : Lifecycle) : Lifecycle × List Publication :=
  if c.isReady then (c, []) else c.setReadiness .up

/-- The readiness a move leaves behind, when it touches it. -/
def readinessAfter? (target : Status) (failure : Option Failure) : Option Readiness :=
  match failure, target with
  | some f, _ => some (.down f.message)
  | none, .stopped => some (.down "stopped")
  | none, _ => none

/-- The status, the latest failure and the count of failures after a move. -/
def moved (target : Status) (failure : Option Failure) (c : Lifecycle) : Lifecycle :=
  { c with
    status := target
    lastFailure := failure.or c.lastFailure
    failures := if target = .failed then c.failures + 1 else c.failures }

/-- Moves the status, then the readiness, then publishes the move. -/
def move (target : Status) (failure : Option Failure) (c : Lifecycle) :
    Except IllegalMove (Lifecycle × List Publication) :=
  if c.status.allows target then
    let (c', published) :=
      match readinessAfter? target failure with
      | some r => (c.moved target failure).setReadiness r
      | none => (c.moved target failure, [])
    .ok (c', published ++ [⟨.transition ⟨c.name, c.status, target, failure⟩, c'⟩])
  else .error ⟨c.name, c.status, target⟩

/-- Carries out a mark: the lifecycle after it and what it publishes, or why it is refused. -/
def mark (m : Mark) (c : Lifecycle) : Except IllegalMove (Lifecycle × List Publication) :=
  match m with
  | .starting => c.move .starting none
  | .running => c.move .running none
  | .stopped => c.move .stopped none
  | .failed f => c.move .failed (some f)
  | .crashed f => c.move .crashed (some f)
  | .ready => .ok c.setReady
  | .notReady reason => .ok (c.setReadiness (.down reason))

theorem move_eq_error_iff {target : Status} {failure : Option Failure} {c : Lifecycle}
    {e : IllegalMove} :
    c.move target failure = .error e ↔
      c.status.allows target = false ∧ e = ⟨c.name, c.status, target⟩ := by
  unfold move
  cases h : c.status.allows target <;> simp [eq_comm]

/-- A mark is refused exactly when it asks for an illegal move. -/
theorem mark_eq_error_iff {m : Mark} {c : Lifecycle} :
    (∃ e, c.mark m = .error e) ↔ ∃ s, m.target? = some s ∧ c.status.allows s = false := by
  cases m <;> simp [mark, Mark.target?, move_eq_error_iff]

end Lifecycle

end Supervision
