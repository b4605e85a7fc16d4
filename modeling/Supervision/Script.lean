import Supervision.Lifecycle
import Supervision.Shutdown

/-!
# What resources do

A resource is driven through cycles. In each cycle its hooks are called: `start`, then `serve`, then
`stop`. What a hook does is a list of acts, done in order without a pause between them; a hook whose
acts are through returns in good order. A hook is called first and then waited for: what it panics
over while it is waited for is caught, but nobody catches what it panics over while it is called.
-/

namespace Supervision

/-- The three hooks of a cycle. -/
inductive Hook where
  | start
  | serve
  | stop
deriving DecidableEq

/-- One act of a hook. -/
inductive Act where
  /-- Sleeps, come what may. -/
  | sleep (ms : Nat)
  /-- Sleeps, but gives up as soon as the cycle is cancelled. -/
  | wait (ms : Nat)
  /-- Waits until the cycle is cancelled. -/
  | untilCancelled
  /-- Waits forever. -/
  | hang
  /-- Returns with an error. -/
  | giveUp (error : HookError)
  /-- Panics. -/
  | panic (payload : Payload)
  /-- Panics while it is still being called, before there is anything to wait for. -/
  | flinch (payload : Payload)
  /-- Marks its own resource; an illegal mark is noted. -/
  | mark (m : Mark)
  /-- Asks for the shutdown and notes whether that began it. -/
  | request (c : Cause)
  /-- Notes a text. -/
  | note (text : String)
deriving DecidableEq

/-- The act is a panic that nobody catches. -/
def Act.isFlinch : Act → Bool
  | .flinch _ => true
  | _ => false

/-- What the hooks of one cycle do. -/
structure Behaviour where
  start : List Act := []
  serve : List Act := []
  stop : List Act := []
deriving DecidableEq, Inhabited

namespace Behaviour

/-- What a hook does. -/
def script (b : Behaviour) : Hook → List Act
  | .start => b.start
  | .serve => b.serve
  | .stop => b.stop

/-- Only the start hook does anything of its own: serving is waiting for the end. -/
def plain (b : Behaviour) : Behaviour := { start := b.start, serve := [.untilCancelled] }

/-- What the cycles do, the last of the list again and again. -/
def cycling (bs : List Behaviour) (n : Nat) : Behaviour :=
  (bs[n]?.or bs.getLast?).getD {}

end Behaviour

/-- How a hook ended. -/
inductive Exit where
  | clean
  | error (e : HookError)
  | panicked (message : String)
deriving DecidableEq

/-- A resource: its name, what it depends on, and what each of its cycles does. -/
structure Resource where
  name : String
  dependsOn : List String := []
  behaviour : Nat → Behaviour := fun _ ↦ {}

end Supervision
