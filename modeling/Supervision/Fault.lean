import Supervision.Failure
import Supervision.Status
import Supervision.Text.Quoted
import Supervision.Time.Span

/-!
# Errors and their wording

One inductive type for each place an error comes from, with one `message` and one `label`:

* `HookError` — a hook of a resource gave up;
* `WorkError` — a unit of work gave up;
* `IllegalMove` — a status was asked to turn into one that may not follow it;
* `StoreError` — the record store failed;
* `RunError` — a supervisor could not be built, or its run did not end well.
-/

namespace Supervision

/-! ### Hooks -/

/-- Why a hook of a resource gave up. -/
inductive HookError where
  /-- Mendable by a restart. -/
  | failed (reason : String)
  /-- Not mendable. -/
  | fatal (reason : String)
  /-- The hook saw that it was cancelled. -/
  | cancelled
deriving DecidableEq, Inhabited

namespace HookError

/-- Message of the error. -/
def message : HookError → String
  | failed reason => reason
  | fatal reason => "fatal: " ++ reason
  | cancelled => "cancelled"

/-- Stable label of the error. -/
def label : HookError → String
  | failed _ => "resource_failed"
  | fatal _ => "resource_fatal"
  | cancelled => "resource_canceled"

/-- A restart may follow. -/
def isRetryable : HookError → Bool
  | failed _ => true
  | _ => false

/-- The detail kept of the error. -/
def failure (e : HookError) : Failure := .plain e.label e.message

end HookError

/-! ### Work -/

/-- Why a unit of work gave up. -/
inductive WorkError where
  /-- A recognised failure with a stable kind. -/
  | framework (kind message : String)
  /-- Anything unexpected, with its causes. -/
  | unclassified (chain : Chain)
  /-- The work was cancelled; not an error. -/
  | cancelled
deriving DecidableEq, Inhabited

namespace WorkError

/-- The error as a chain of texts. -/
def chain : WorkError → Chain
  | framework kind message => ⟨kind ++ ": " ++ message, []⟩
  | unclassified c => c
  | cancelled => ⟨"cancelled", []⟩

/-- Message of the error. -/
def message (e : WorkError) : String := e.chain.top

/-- Stable label of the error. -/
def label : WorkError → String
  | framework _ _ => "work_framework"
  | unclassified _ => "work_unclassified"
  | cancelled => "work_cancelled"

end WorkError

/-- What is said of a cancelled unit of work. -/
def cancelledText : String := "unit of work cancelled"

/-! ### Statuses -/

/-- A status that was asked to turn into one that may not follow it. -/
structure IllegalMove where
  /-- The resource asked. -/
  resource : String
  /-- Its status. -/
  source : Status
  /-- The status asked for. -/
  target : Status
deriving DecidableEq

/-- Message of the error. -/
def IllegalMove.message (e : IllegalMove) : String :=
  "illegal lifecycle transition for " ++ Text.quoted e.resource ++ ": " ++ e.source.name ++ " -> "
    ++ e.target.name

/-! ### Store -/

/-- Why the record store failed. -/
inductive StoreError where
  /-- The database refused; the reason is its own text. -/
  | engine (reason : String)
  /-- A directory or file could not be made. -/
  | io (reason : String)
  /-- A writer panicked while it held the store. -/
  | poisoned
  /-- A task that held the store ended without a result. -/
  | taskLost (reason : String)
  /-- A stored value has no meaning here. -/
  | undecodable (column value : String)
deriving DecidableEq, Inhabited

namespace StoreError

/-- Message of the error. -/
def message : StoreError → String
  | engine reason => "sqlite: " ++ reason
  | io reason => "store io: " ++ reason
  | poisoned => "store connection lock poisoned"
  | taskLost reason => "blocking store task failed: " ++ reason
  | undecodable column value => "cannot decode " ++ column ++ " value " ++ Text.quoted value

/-- Stable label of the error. -/
def label : StoreError → String
  | engine _ => "store_sqlite"
  | io _ => "store_io"
  | poisoned => "store_poisoned"
  | taskLost _ => "store_join"
  | undecodable _ _ => "store_decode"

end StoreError

/-! ### Runs -/

/-- One resource that was not ready when an escalation began. -/
structure Unready where
  /-- Its name. -/
  resource : String
  /-- Its status then. -/
  status : Status
  /-- Why it was not ready, if it said so. -/
  reason : Option String
deriving DecidableEq

/-- Text of one entry of an escalation report. -/
def Unready.text (u : Unready) : String :=
  u.resource ++ " (" ++ u.status.name ++ "): " ++ u.reason.getD "no reason reported"

/-- Text of an escalation report. -/
def Unready.report : List Unready → String
  | [] => "no unready resources"
  | us => "; ".intercalate (us.map text)

/-- Why a supervisor could not be built, or its run did not end well. -/
inductive RunError where
  /-- Some resources did not stop in time. -/
  | graceExceeded (grace : Span) (stuck : List String)
  /-- A failure no restart could mend ended the run. -/
  | escalated (trigger : String) (failures : List Unready)
  /-- Two resources have one name. -/
  | duplicateResource (resource : String)
  /-- A resource depends on a name nobody has. -/
  | unknownDependency (resource dependency : String)
  /-- Resources depend on each other in a circle. -/
  | dependencyCycle (resource : String)
  /-- Termination signals could not be watched. -/
  | signal (reason : String)
  /-- The record store failed. -/
  | store (error : StoreError)
deriving DecidableEq

namespace RunError

/-- Message of the error. -/
def message : RunError → String
  | graceExceeded grace stuck =>
    "shutdown timeout " ++ grace.text ++ " exceeded; stuck: " ++ Text.quotedList stuck
  | escalated trigger failures =>
    "shutdown escalated by " ++ trigger ++ ": " ++ Unready.report failures
  | duplicateResource resource => "resource " ++ Text.quoted resource ++ " is registered twice"
  | unknownDependency resource dependency =>
    "resource " ++ Text.quoted resource ++ " depends on unknown resource "
      ++ Text.quoted dependency
  | dependencyCycle resource => "dependency cycle through resource " ++ Text.quoted resource
  | signal reason => "failed to install shutdown signal handler: " ++ reason
  | store error => error.message

/-- Stable label of the error. -/
def label : RunError → String
  | graceExceeded _ _ => "runtime_grace_exceeded"
  | escalated _ _ => "runtime_escalated"
  | duplicateResource _ => "runtime_duplicate_resource"
  | unknownDependency _ _ => "runtime_unknown_dependency"
  | dependencyCycle _ => "runtime_dependency_cycle"
  | signal _ => "runtime_signal"
  | store _ => "runtime_store"

end RunError

end Supervision
