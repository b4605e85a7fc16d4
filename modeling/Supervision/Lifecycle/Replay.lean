import Supervision.Lifecycle

/-!
# Reading a lifecycle off its events

Whoever sees every event of a resource knows its lifecycle: `replay` is what an event says about it.
A transition tells the status, and the failure if there was one; a readiness event tells the
readiness. Nothing else of a lifecycle can change.
-/

namespace Supervision

namespace Lifecycle

/-- The lifecycle that an event of its resource says comes next. -/
def replay (c : Lifecycle) (e : Event) : Lifecycle :=
  match e.move with
  | some m =>
    { c with
      status := m.target
      failures := c.failures + (if m.target = .failed then 1 else 0)
      lastFailure := if m.failure.isSome then m.failure else c.lastFailure }
  | none =>
    match e.ready with
    | some ready => { c with readiness := ⟨ready, e.reason⟩ }
    | none => c

/-- The lifecycle that events of its resource tell, one after the other. -/
def replayAll (events : List Event) (c : Lifecycle) : Lifecycle := events.foldl replay c

/-- Carries out marks one after the other, those that are refused in vain: the lifecycle after them
and what is published. -/
def markAll : List Mark → Lifecycle → Lifecycle × List Publication
  | [], c => (c, [])
  | m :: ms, c =>
    match c.mark m with
    | .error _ => markAll ms c
    | .ok (c', published) =>
      let (c'', more) := markAll ms c'
      (c'', published ++ more)

@[simp] theorem replayAll_nil (c : Lifecycle) : c.replayAll [] = c := rfl

@[simp] theorem replayAll_cons (e : Event) (es : List Event) (c : Lifecycle) :
    c.replayAll (e :: es) = (c.replay e).replayAll es := rfl

theorem replayAll_append (es es' : List Event) (c : Lifecycle) :
    c.replayAll (es ++ es') = (c.replayAll es).replayAll es' := by
  simp [replayAll, List.foldl_append]

end Lifecycle

end Supervision
