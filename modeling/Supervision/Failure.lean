/-!
# What went wrong

A `Failure` is the detail that a failed or crashed resource, an unsuccessful unit of work or a
session keeps: a stable kind, a message, and a trace where there is one.

An error may have a chain of causes below it (`Chain`). Its message is the outermost text; its trace
is the whole chain, one cause a line.
-/

namespace Supervision

/-- Detail of a failure. -/
structure Failure where
  /-- Stable name of the kind of error. -/
  kind : String
  /-- Message for people. -/
  message : String
  /-- Chain of causes or place of a panic, where known. -/
  trace : Option String
deriving DecidableEq, Inhabited

namespace Failure

/-- A failure without trace. -/
def plain (kind message : String) : Failure := ⟨kind, message, none⟩

end Failure

/-- An error with its causes, outermost first. -/
structure Chain where
  /-- Text of the error itself. -/
  top : String
  /-- Texts of its causes, each the cause of the one before. -/
  causes : List String
deriving DecidableEq, Inhabited

namespace Chain

/-- The chain of the given texts; an empty list stands for an error with an empty text. -/
def ofList : List String → Chain
  | [] => ⟨"", []⟩
  | t :: ts => ⟨t, ts⟩

/-- The whole chain, one cause a line. -/
def render (c : Chain) : String :=
  c.top ++ String.join (c.causes.map fun t ↦ "\ncaused by: " ++ t)

/-- The detail of an error of the given kind: its text, traced by its whole chain. -/
def failure (kind : String) (c : Chain) : Failure := ⟨kind, c.top, some c.render⟩

end Chain

/-- What a panic carries: a text, or something that is none. -/
inductive Payload where
  | text (message : String)
  | other
deriving DecidableEq, Inhabited

/-- What is reported of a panic. -/
def Payload.message : Payload → String
  | .text m => m
  | .other => "unknown panic"

end Supervision
