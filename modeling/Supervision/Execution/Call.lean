import Supervision.Execution.Attempt

/-!
# Calls

A `Call` is one attempt on behalf of a registration, in a session. What happens to it is a list of
looks and drops; the record of its outcome is submitted when it ends.

How a call ends in time depends on how long its work lasts and on what else may end it (`Bound`):
`Bound.events` says what then happens to the call.
-/

namespace Supervision

/-- What happens to a call. -/
inductive CallEvent where
  /-- It is looked at: its token may be cancelled, and its work may have ended. -/
  | look (cancelled : Bool) (ending : Option WorkEnd)
  /-- Its caller gives it up. -/
  | drop
deriving DecidableEq

/-- One attempt on behalf of a registration. -/
structure Call where
  /-- The registration. -/
  target : Target
  /-- The session. -/
  session : Int
  /-- When it began. -/
  startedAt : Stamp
  /-- Where it stands. -/
  attempt : Attempt := .working
deriving DecidableEq

namespace Call

/-- Something happens to a call so long after its begin: the call after it, and the records it
submits. -/
def step (c : Call) (elapsed : Span) (e : CallEvent) : Call × List Record :=
  let (attempt, outcome) := match e with
    | .look cancelled ending => c.attempt.look cancelled ending
    | .drop => c.attempt.drop
  ({ c with attempt := attempt },
    (outcome.map (.ofOutcome c.target c.session c.startedAt elapsed)).toList)

/-- What happens to a call, in order: the call after it, and the records it submits. -/
def run (c : Call) : List (Span × CallEvent) → Call × List Record
  | [] => (c, [])
  | (elapsed, e) :: rest =>
    let (c, rs) := c.step elapsed e
    let (c, more) := c.run rest
    (c, rs ++ more)

/-- What a call logs at its end. -/
def line? (c : Call) : Option LogLine :=
  match c.attempt with
  | .settled o => o.line? c.target
  | _ => none

end Call

/-! ### Calls in time -/

/-- What may end a call besides its work, in milliseconds after its begin. -/
inductive Bound where
  /-- Nothing. -/
  | free
  /-- A token that is cancelled then, if ever; zero for a token cancelled before. -/
  | token (cancelAt : Option Nat)
  /-- The caller waits no longer. -/
  | timeout (after : Nat)
  /-- The task that makes the call is aborted. -/
  | abort (after : Nat)
deriving DecidableEq

/-- What a caller learns. -/
inductive CallResult where
  | ok
  | cancelled
  | timedOut
  | aborted
deriving DecidableEq

namespace Bound

/-- What happens to a call whose work lasts so many milliseconds and then ends. Work wins a tie with
a token or a timeout and loses one with an abort; a call aborted at once never begins. -/
def events (b : Bound) (lasts : Nat) (ending : WorkEnd) : List CallEvent :=
  let ends : List CallEvent := [.look false none, .look false (some ending)]
  match b with
  | free | token none => ends
  | token (some t) =>
    if t = 0 then [.look true none]
    else if t < lasts then [.look false none, .look true none]
    else ends
  | timeout t => if t < lasts then [.look false none, .drop] else ends
  | abort t => if t = 0 then [] else if t ≤ lasts then [.look false none, .drop] else ends

/-- What the caller learns of an attempt in the end. -/
def result (b : Bound) (a : Attempt) : CallResult :=
  match a, b with
  | .settled .cancelled, _ => .cancelled
  | .settled _, _ => .ok
  | _, .timeout _ => .timedOut
  | _, _ => .aborted

/-- How long the caller waits for work that lasts so many milliseconds. -/
def waits (b : Bound) (lasts : Nat) : Nat :=
  match b with
  | free | token none => lasts
  | token (some t) | timeout t => min t lasts
  | abort t => t

end Bound

end Supervision
