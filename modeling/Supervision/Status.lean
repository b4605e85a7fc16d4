/-!
# Where a resource stands

The six statuses of a resource and the table of legal moves between them. The only way back is from
`failed` to `starting`; a crashed or stopped resource stays as it is.

* `allows_iff` — the table, as a list of pairs.
* `not_allows_self` — no status moves to itself.
* `exists_allows_iff` — exactly `stopped` and `crashed` have no way out.
-/

namespace Supervision

/-- Where a resource stands. -/
inductive Status where
  /-- Registered, never started. -/
  | notStarted
  /-- Waiting for what it depends on, or in its start hook. -/
  | starting
  /-- The start hook has ended; the resource serves. -/
  | running
  /-- Ended in good order. -/
  | stopped
  /-- Ended by a failure that a restart may mend. -/
  | failed
  /-- Ended by a failure that no restart mends. -/
  | crashed
deriving DecidableEq, Inhabited

namespace Status

/-- The status `next` may follow `s`. -/
def allows : Status → Status → Bool
  | .notStarted, .starting => true
  | .starting, .running | .starting, .stopped | .starting, .failed | .starting, .crashed => true
  | .running, .stopped | .running, .failed | .running, .crashed => true
  | .failed, .starting => true
  | _, _ => false

/-- The status ends a cycle. -/
def isTerminal : Status → Bool
  | .stopped | .failed | .crashed => true
  | _ => false

/-- The name of a status in messages and answers. -/
def name : Status → String
  | .notStarted => "not_started"
  | .starting => "starting"
  | .running => "running"
  | .stopped => "stopped"
  | .failed => "failed"
  | .crashed => "crashed"

/-- Every status. -/
def all : List Status := [.notStarted, .starting, .running, .stopped, .failed, .crashed]

/-- The status of a name. -/
def ofName? (s : String) : Option Status := all.find? (·.name == s)

theorem allows_iff {a b : Status} :
    a.allows b = true ↔ (a, b) ∈
      [(notStarted, starting), (starting, running), (starting, stopped), (starting, failed),
        (starting, crashed), (running, stopped), (running, failed), (running, crashed),
        (failed, starting)] := by
  cases a <;> cases b <;> decide

@[simp] theorem not_allows_self (a : Status) : a.allows a = false := by cases a <;> rfl

theorem exists_allows_iff {a : Status} :
    (∃ b, a.allows b = true) ↔ a ≠ .stopped ∧ a ≠ .crashed := by
  constructor
  · rintro ⟨b, h⟩; cases a <;> cases b <;> simp_all [allows]
  · rintro ⟨h₁, h₂⟩
    cases a
    · exact ⟨.starting, rfl⟩
    · exact ⟨.running, rfl⟩
    · exact ⟨.stopped, rfl⟩
    · exact absurd rfl h₁
    · exact ⟨.starting, rfl⟩
    · exact absurd rfl h₂

/-- What was started and has not ended is starting or running. -/
theorem starting_or_running {a : Status} (begun : a ≠ .notStarted)
    (unsettled : a.isTerminal = false) : a = .starting ∨ a = .running := by
  cases a with
  | notStarted => exact absurd rfl begun
  | starting => exact .inl rfl
  | running => exact .inr rfl
  | stopped | failed | crashed => cases unsettled

/-- Every status that is no end, `notStarted` apart, may turn into every end. -/
theorem allows_of_isTerminal {a b : Status} (ha : a = .starting ∨ a = .running)
    (hb : b.isTerminal = true) : a.allows b = true := by
  rcases ha with rfl | rfl <;> cases b <;> simp_all [allows, isTerminal]

end Status

end Supervision
