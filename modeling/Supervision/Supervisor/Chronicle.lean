import Supervision.Supervisor.State

/-!
# Reading the chronicle

The chronicle of a supervisor tells what was published and when, what the resources noted, and in
which order they left the running state once the shutdown had begun.
-/

namespace Supervision

namespace Entry

/-- The event an entry says was published. -/
def published? (e : Entry) : Option Event :=
  match e.what with
  | .published ev => some ev
  | _ => none

/-- What an entry says the resource in a place noted. -/
def noted? (place : Nat) (e : Entry) : Option String :=
  match e.what with
  | .noted p text => if p = place then some text else none
  | _ => none

end Entry

namespace State

/-- Events with the moments at which they were published, in order. -/
def published (s : State) : List (Nat × Event) :=
  s.chronicle.toList.filterMap fun e ↦ e.published?.map (e.moment, ·)

/-- What the resource in a place noted, and when, in order. -/
def notes (place : Nat) (s : State) : List (Nat × String) :=
  s.chronicle.toList.filterMap fun e ↦ (e.noted? place).map (e.moment, ·)

/-- The resources in the order in which they left the running state once the shutdown had begun. -/
def stopOrder (s : State) : List String :=
  let later := (s.published.map (·.2)).dropWhile (·.kind ≠ .shutdownRequested)
  (later.filterMap (·.move)).filterMap fun m ↦
    if m.source = .running then some m.resource else none

/-- An entered event comes last among those published. -/
theorem published_enter (h : Happening) (s : State) :
    (s.enter h).published
      = s.published ++ ((Entry.mk s.now h).published?.map (s.now, ·)).toList := by
  simp only [published, enter, Array.toList_push, List.filterMap_append]
  cases he : (Entry.mk s.now h).published? <;> simp [he]

end State

end Supervision
