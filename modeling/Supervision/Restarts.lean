import Supervision.Settings.Supervisor

/-!
# How often a resource may be restarted

An `Account` counts the restarts of one resource since it last recovered, knows whether a restart is
under way, and up to which failure it has been told. A resource counts its failures itself, so each
failure is acted on once, however often and in whatever form the news of it arrives.

* `onFailure_handled_iff` — news is old exactly when no failure is newer than those acted on.
-/

namespace Supervision

/-- The restarts of one resource. -/
structure Account where
  /-- Restarts since the resource last recovered. -/
  attempts : Nat := 0
  /-- A restart is on the calendar. -/
  pending : Bool := false
  /-- Failures acted on. -/
  handled : Nat := 0
deriving DecidableEq, Inhabited

/-- What is done about a failure. -/
inductive Decision where
  /-- Nothing; it was acted on before. -/
  | handled
  /-- Nothing; a restart is on the calendar already. -/
  | pending
  /-- The resource has had all its restarts. -/
  | exhausted (attempts : Nat)
  /-- It is restarted after a delay; this is restart number `attempt`. -/
  | restart (attempt : Nat) (delay : Span)
deriving DecidableEq

namespace Account

/-- What is done about a resource that has failed `seen` times, and the account after it. The only
thing that can go wrong is that the delay has no value. -/
def onFailure (s : Settings) (roll seen : Nat) (a : Account) :
    Except Span.Unreadable (Decision × Account) :=
  if seen ≤ a.handled then .ok (.handled, a)
  else if a.pending then .ok (.pending, { a with handled := seen })
  else if s.maxRestarts ≤ a.attempts then .ok (.exhausted a.attempts, { a with handled := seen })
  else
    match s.backoff.delay roll a.attempts with
    | .error e => .error e
    | .ok delay =>
      .ok (.restart (a.attempts + 1) delay,
        { attempts := a.attempts + 1, pending := true, handled := seen })

/-- The restart on the calendar begins, or is called off. -/
def release (a : Account) : Account := { a with pending := false }

/-- The resource has recovered: its count begins anew. -/
def recover (a : Account) : Account := { a with attempts := 0 }

theorem onFailure_handled_iff {s : Settings} {roll seen : Nat} {a a' : Account} :
    a.onFailure s roll seen = .ok (.handled, a') ↔ seen ≤ a.handled ∧ a' = a := by
  unfold onFailure
  split
  · rename_i h
    simp [h, eq_comm]
  · rename_i h
    simp only [h, false_and, iff_false]
    split
    · simp
    · split
      · simp
      · split <;> simp

end Account

end Supervision
