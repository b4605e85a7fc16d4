import Supervision.Execution.Outcome

/-!
# Registrations

A listener or a job is known by its natural key: application, instance, name and topic. Registering
a key anew refreshes what is known about it.
-/

namespace Supervision

/-- What a registration is known by. -/
structure RegistrationKey where
  /-- Application it belongs to. -/
  app : String
  /-- Instance of the application. -/
  instanceIndex : Int
  /-- Its name. -/
  name : String
  /-- Its topic, or nothing. -/
  topic : String
deriving DecidableEq, Inhabited

namespace RegistrationKey

/-- Order of keys: field by field, texts by their characters. -/
def before (a b : RegistrationKey) : Bool :=
  if a.app ≠ b.app then a.app < b.app
  else if a.instanceIndex ≠ b.instanceIndex then a.instanceIndex < b.instanceIndex
  else if a.name ≠ b.name then a.name < b.name
  else a.topic < b.topic

end RegistrationKey

/-- What is known about a listener. -/
structure ListenerInfo where
  /-- Quiet time before an invocation. -/
  debounce : Option Span
  /-- Least time between invocations. -/
  throttle : Option Span
  /-- It is invoked once only. -/
  once : Bool
  /-- Larger ones are invoked first. -/
  priority : Int
  /-- What it waits for, in words. -/
  predicate : Option String
  /-- Where it was registered. -/
  source : Option String
deriving DecidableEq, Inhabited

/-- What is known about a job. -/
structure JobInfo where
  /-- What it runs. -/
  handler : String
  /-- Kind of its schedule. -/
  trigger : String
  /-- Its schedule in words. -/
  description : Option String
  /-- It runs more than once. -/
  repeats : Bool
  /-- Where it was registered. -/
  source : Option String
deriving DecidableEq, Inhabited

/-- A listener or job with its key. -/
structure Registration (α : Type) where
  /-- What it is known by. -/
  key : RegistrationKey
  /-- What is known about it. -/
  info : α
deriving DecidableEq, Inhabited

end Supervision
