import Supervision.Supervisor.State

/-!
# The ledger of restarts

What is published about the restarts of one resource keeps a ledger of its own: each restart that
is scheduled counts, and a recovery begins a new count (`restartsSince`). A list of events is a
ledger (`Setup.IsLedger`) when every entry says what the entries before it allow. Two things are
kept along with it: the count, and a number of failures that at least as many entries answer to.

* `IsLedger.schedule`, `IsLedger.exhaust`, `IsLedger.recover` — the entries that may come next.
* `IsLedger.append` — events about anything else may come at any time.
-/

namespace Supervision

/-- It tells of a restart. -/
def EventKind.isRestart : EventKind → Bool
  | .restartScheduled | .restartRecovered | .restartExhausted => true
  | _ => false

/-- It answers to a failure. -/
def EventKind.answersFailure : EventKind → Bool
  | .restartScheduled | .restartExhausted => true
  | _ => false

/-- The count of restarts of a resource after one more event. -/
def Event.recount (name : String) (n : Nat) (e : Event) : Nat :=
  if e.resource = some name then
    match e.kind with
    | .restartScheduled => n + 1
    | .restartRecovered => 0
    | _ => n
  else n

/-- How many restarts of a resource were scheduled since it last recovered. -/
def restartsSince (name : String) (events : List Event) : Nat :=
  events.foldl (Event.recount name) 0

/-- How many events answer to a failure of a resource. -/
def answers (name : String) (events : List Event) : Nat :=
  events.countP fun e ↦ e.resource = some name && e.kind.answersFailure

/-- What may be said about a resource that was restarted so many times since it last recovered. -/
structure Setup.IsLawful (S : Setup) (restarts : Nat) (e : Event) : Prop where
  scheduled : e.kind = .restartScheduled → e.attempt = some (restarts + 1) ∧
    ∃ d, (∀ roll, S.settings.backoff.delay roll restarts = .ok d) ∧ e.delayMs = some d.millisWord
  recovered : e.kind = .restartRecovered → e.attempt = some restarts ∧ 1 ≤ restarts
  exhausted : e.kind = .restartExhausted →
    e.attempt = some restarts ∧ restarts = S.settings.maxRestarts

/-- The events say of the restarts of a resource what they may, with a count of restarts that stays
within the limit and no more answers to failures than there were failures. -/
structure Setup.IsLedger (S : Setup) (name : String) (events : List Event)
    (restarts failures : Nat) : Prop where
  count : restarts = restartsSince name events
  limit : restarts ≤ S.settings.maxRestarts
  lawful : ∀ (k : Nat) (e : Event), events[k]? = some e → e.resource = some name →
    S.IsLawful (restartsSince name (events.take k)) e
  answered : answers name events ≤ failures

variable {S : Setup} {name : String} {events more : List Event} {e : Event} {a a' n n' : Nat}

theorem restartsSince_concat (name : String) (events : List Event) (e : Event) :
    restartsSince name (events ++ [e]) = e.recount name (restartsSince name events) := by
  unfold restartsSince
  rw [List.foldl_append]
  rfl

namespace Setup

theorem isLawful_of_quiet (quiet : e.kind.isRestart = false) : S.IsLawful a e := by
  refine ⟨fun kind ↦ ?_, fun kind ↦ ?_, fun kind ↦ ?_⟩
  all_goals
    rw [kind] at quiet
    cases quiet

theorem isLedger_nil (S : Setup) (name : String) (n : Nat) : S.IsLedger name [] 0 n where
  count := rfl
  limit := Nat.zero_le _
  lawful k e he := by simp at he
  answered := Nat.zero_le _

namespace IsLedger

/-- What one more entry has to keep. -/
theorem concat (h : S.IsLedger name events a n) (counts : e.recount name a = a')
    (lawful : e.resource = some name → S.IsLawful a e) (limit : a' ≤ S.settings.maxRestarts)
    (answered : n + answers name [e] ≤ n') : S.IsLedger name (events ++ [e]) a' n' where
  count := by rw [restartsSince_concat, ← h.count, counts]
  limit := limit
  lawful k d hd about := by
    -- An entry is judged by those before it, so for the old ones nothing changes.
    rcases Nat.lt_or_ge k events.length with old | new
    · rw [List.getElem?_append_left old] at hd
      rw [List.take_append_of_le_length (Nat.le_of_lt old)]
      exact h.lawful k d hd about
    · have last : k = events.length := by
        obtain ⟨hk, -⟩ := List.getElem?_eq_some_iff.1 hd
        rw [List.length_append] at hk
        exact Nat.le_antisymm (Nat.le_of_lt_succ hk) new
      subst last
      rw [List.getElem?_concat_length] at hd
      cases hd
      rw [List.take_left, ← h.count]
      exact lawful about
  answered := by
    have before := h.answered
    unfold answers at before answered ⊢
    rw [List.countP_append]
    omega

theorem mono (h : S.IsLedger name events a n) (le : n ≤ n') : S.IsLedger name events a n' :=
  { h with answered := Nat.le_trans h.answered le }

/-- Events about anything else are no entries. -/
theorem append (h : S.IsLedger name events a n)
    (quiet : ∀ e ∈ more, e.resource = some name → e.kind.isRestart = false) :
    S.IsLedger name (events ++ more) a n := by
  induction more generalizing events with
  | nil => rwa [List.append_nil]
  | cons e rest ih =>
    have first : S.IsLedger name (events ++ [e]) a n := by
      have still : e.recount name a = a ∧ answers name [e] = 0 := by
        by_cases about : e.resource = some name
        · have kind := quiet e List.mem_cons_self about
          unfold Event.recount answers
          cases hk : e.kind <;> rw [hk] at kind <;>
            simp_all [EventKind.isRestart, EventKind.answersFailure]
        · simp [Event.recount, answers, about]
      exact h.concat still.1 (fun about ↦ isLawful_of_quiet (quiet e List.mem_cons_self about))
        h.limit (by rw [still.2]; exact Nat.le_refl n)
    rw [List.append_cons]
    exact ih first fun d hd ↦ quiet d (List.mem_cons_of_mem _ hd)

/-- A restart may be scheduled as long as the limit is not reached. -/
theorem schedule (h : S.IsLedger name events a n) (left : a < S.settings.maxRestarts)
    {d : Span} (hd : ∀ roll, S.settings.backoff.delay roll a = .ok d) (new : n < n')
    (reason : String) :
    S.IsLedger name (events ++ [.scheduled name (a + 1) d reason]) (a + 1) n' := by
  refine h.concat (by simp [Event.recount, Event.scheduled]) (fun _ ↦ ?_) left ?_
  · exact ⟨fun _ ↦ ⟨rfl, d, hd, rfl⟩, nofun, nofun⟩
  · simpa [answers, Event.scheduled, EventKind.answersFailure] using Nat.succ_le_of_lt new

/-- That no restarts are left may be said when the limit is reached. -/
theorem exhaust (h : S.IsLedger name events a n) (spent : S.settings.maxRestarts ≤ a)
    (new : n < n') (reason : String) :
    S.IsLedger name (events ++ [.exhausted name a reason]) a n' := by
  refine h.concat (by simp [Event.recount, Event.exhausted]) (fun _ ↦ ?_) h.limit ?_
  · exact ⟨nofun, nofun, fun _ ↦ ⟨rfl, Nat.le_antisymm h.limit spent⟩⟩
  · simpa [answers, Event.exhausted, EventKind.answersFailure] using Nat.succ_le_of_lt new

/-- A recovery may be told of when there was a restart. -/
theorem recover (h : S.IsLedger name events a n) (restarted : 0 < a) :
    S.IsLedger name (events ++ [.recovered name a]) 0 n := by
  refine h.concat (by simp [Event.recount, Event.recovered]) (fun _ ↦ ?_) (Nat.zero_le _) ?_
  · exact ⟨nofun, fun _ ↦ ⟨rfl, restarted⟩, nofun⟩
  · simp [answers, Event.recovered, EventKind.answersFailure]

end IsLedger

end Setup

end Supervision
