import Mathlib.Tactic.Common
import Supervision.Execution.Flight

/-!
# One record for each call

The future of a call can be polled any number of times and dropped at any moment. Its `Fate` is what
the first touch that can end it brings: the end of the work, a token that is found cancelled before
it, or that the future is dropped. `Flight.submits_once` says that from the first poll on the fate
decides everything: a call without one has submitted nothing yet, and with one exactly one record,
whatever is done to the future afterwards.

It rests on the guard: `run_aloft` follows a future whose guard is armed, and `run_of_isOver` one
that has no guard any more. `run_eq_call` puts the flight beside the call it is a closer look at.
-/

namespace Supervision

/-! ### What becomes of a call -/

/-- How a call ends. -/
inductive Fate where
  /-- Its work ended. -/
  | worked (e : WorkEnd)
  /-- Its token was found cancelled before its work had ended. -/
  | cancelled
  /-- Its future was dropped. -/
  | abandoned
deriving DecidableEq

namespace Fate

/-- The status to be recorded. -/
def status : Fate → RecordStatus
  | worked .returned => .success
  | worked (.failed (.framework _ _)) => .error
  | worked (.failed (.unclassified _)) => .error
  | worked (.panicked _) => .error
  | worked (.failed .cancelled) => .cancelled
  | cancelled => .cancelled
  | abandoned => .cancelled

/-- The record is to have a trace. -/
def isTraced : Fate → Bool
  | worked (.failed (.unclassified _)) => true
  | worked (.panicked _) => true
  | _ => false

/-- What the caller is answered; a future that was dropped answers nothing. -/
def answer? : Fate → Option CallResult
  | worked (.failed .cancelled) => some .cancelled
  | worked _ => some .ok
  | cancelled => some .cancelled
  | abandoned => none

/-- The outcome of a call that ends so. -/
def outcome : Fate → Outcome
  | worked e => e.outcome
  | cancelled => .cancelled
  | abandoned => .cancelled

/-- What touch number `n` brings, counted from the first poll, if no touch before it brought
anything. -/
def ofTouch? (w : Work) (hasToken : Bool) (n : Nat) : Touch → Option Fate
  | .poll _ seen =>
    if hasToken && seen then some cancelled
    else if n = w.pending then w.ending.map worked
    else none
  | .drop => some abandoned

/-- What the first touch that brings anything brings, and when. -/
def first? (w : Work) (hasToken : Bool) (ts : List (Span × Touch)) : Option (Span × Fate) :=
  ts.zipIdx.findSome? fun ((elapsed, t), n) ↦ (ofTouch? w hasToken n t).map (elapsed, ·)

/-- What a record has to say of a call that ends so. -/
structure Tells (fate : Fate) (r : Record) : Prop where
  status : r.status = fate.status
  errorType : r.errorType.isSome ↔ r.status = .error
  errorMessage : r.errorMessage.isSome ↔ r.status = .error
  errorTrace : r.errorTrace.isSome ↔ fate.isTraced = true

variable {w : Work} {hasToken : Bool}

/-- Work that is still pending after a poll sees one poll less before its end. -/
theorem ofTouch?_poll (pending : w.poll.1 = none) (n : Nat) (t : Touch) :
    ofTouch? w.poll.2 hasToken n t = ofTouch? w hasToken (n + 1) t := by
  obtain ⟨polls, ending⟩ := w
  match t, polls with
  | .drop, _ => rfl
  | .poll _ _, 0 =>
    have never : ending = none := pending
    subst never
    by_cases first : n = 0 <;> simp [ofTouch?, Work.poll, first]
  | .poll _ _, polls + 1 => by_cases last : n = polls <;> simp [ofTouch?, Work.poll, last]

theorem first?_cons_of_some {elapsed : Span} {t : Touch} {ts : List (Span × Touch)} {fate : Fate}
    (brings : ofTouch? w hasToken 0 t = some fate) :
    first? w hasToken ((elapsed, t) :: ts) = some (elapsed, fate) := by
  simp [first?, List.zipIdx_cons, brings]

theorem first?_cons_of_none {elapsed : Span} {t : Touch} {ts : List (Span × Touch)}
    (brings : ofTouch? w hasToken 0 t = none) (pending : w.poll.1 = none) :
    first? w hasToken ((elapsed, t) :: ts) = first? w.poll.2 hasToken ts := by
  simp only [first?, List.zipIdx_cons, List.findSome?_cons, brings, Option.map_none,
    List.zipIdx_succ, List.findSome?_map, ofTouch?_poll pending]
  rfl

/-- The first poll brings what the token says, or else what the work says. -/
theorem ofTouch?_zero_poll (w : Work) (hasToken : Bool) (clock : Stamp) (seen : Bool) :
    ofTouch? w hasToken 0 (.poll clock seen) =
      if hasToken && seen then some cancelled else w.poll.1.map worked := by
  obtain ⟨polls, ending⟩ := w
  cases polls <;> rfl

/-- The outcome of the call has what the record has to say. -/
theorem tells_ofOutcome (fate : Fate) (target : Target) (session : Int) (startedAt : Stamp)
    (duration : Span) :
    fate.Tells (.ofOutcome target session startedAt duration fate.outcome) := by
  rcases fate with (_ | (_ | _ | _) | _) | _ | _ <;> constructor <;>
    simp [Record.ofOutcome, outcome, status, isTraced, WorkEnd.outcome, Outcome.status,
      Outcome.detail?, Failure.plain, Chain.failure]

theorem isSome_answer? (fate : Fate) : fate.answer?.isSome ↔ fate ≠ .abandoned := by
  rcases fate with (_ | (_ | _ | _) | _) | _ | _ <;> simp [answer?]

/-- A call answers that it was cancelled exactly if that is its status. -/
theorem answer_eq {fate : Fate} {answer : CallResult} (given : fate.answer? = some answer) :
    answer = if fate.status = .cancelled then .cancelled else .ok := by
  rcases fate with (_ | (_ | _ | _) | _) | _ | _ <;> simp_all [answer?, status]

theorem answer?_worked (e : WorkEnd) : (worked e).answer? = some e.outcome.answer := by
  rcases e with _ | (_ | _ | _) | _ <;> rfl

end Fate

/-- The caller of a call that has its outcome learns what the future answers. -/
theorem Bound.result_settled (b : Bound) (o : Outcome) : b.result (.settled o) = o.answer := by
  obtain _ | _ | _ := o
  · rfl
  · rename_i grade _
    cases grade <;> rfl
  · rfl

/-- A guard that is given the outcome submits it, and does not submit again when it goes. -/
theorem Guard.settle_eq (g : Guard) (elapsed : Span) (o : Outcome) :
    g.settle elapsed o = [g.record elapsed o] := rfl

namespace Flight

variable {f : Flight} {g : Guard} {elapsed : Span} {clock : Stamp} {attempt : Attempt}
  {ts : List (Span × Touch)}

/-! ### Following a future -/

theorem run_cons (elapsed : Span) (t : Touch) :
    f.run ((elapsed, t) :: ts) =
      (((f.step elapsed t).1.run ts).1, (f.step elapsed t).2 ++ ((f.step elapsed t).1.run ts).2) :=
  rfl

/-- A future that has answered or was dropped submits nothing more. -/
theorem run_of_isOver (isOver : (∃ a, f.stage = .landed a) ∨ f.stage = .lost) :
    f.run ts = (f, []) := by
  induction ts with
  | nil => rfl
  | cons head rest ih =>
    obtain ⟨elapsed, t⟩ := head
    have same : f.step elapsed t = (f, []) := by
      obtain ⟨a, stage⟩ | stage := isOver <;> cases t <;> simp [step, stage]
    rw [run_cons, same, ih]
    rfl

/-- An armed guard submits one record, however its future ends; as long as nothing ends it, none. -/
theorem run_aloft (ts : List (Span × Touch)) (armed : g.armed = true)
    (aloft : f.stage = .aloft g) :
    match Fate.first? f.work f.hasToken ts with
    | some (elapsed, fate) =>
      (f.run ts).2 = [g.record elapsed fate.outcome] ∧ (f.run ts).1.answer? = fate.answer?
    | none => (f.run ts).2 = [] ∧ (f.run ts).1.isAloft = true := by
  induction ts generalizing f with
  | nil => exact ⟨rfl, by simp [run, isAloft, aloft]⟩
  | cons head rest ih =>
    obtain ⟨elapsed, t⟩ := head
    cases t with
    | drop =>
      have brings : Fate.ofTouch? f.work f.hasToken 0 .drop = some .abandoned := rfl
      have dropped : f.step elapsed .drop =
          ({ f with stage := .lost }, [g.record elapsed .cancelled]) := by
        simp [step, aloft, Guard.release, armed]
      rw [Fate.first?_cons_of_some brings, run_cons, dropped, run_of_isOver (.inr rfl)]
      exact ⟨rfl, rfl⟩
    | poll clock seen =>
      have polled : f.step elapsed (.poll clock seen) = f.advance g elapsed seen := by
        rw [step, aloft]
      have brings := Fate.ofTouch?_zero_poll f.work f.hasToken clock seen
      rw [run_cons, polled, advance]
      by_cases cancelled : (f.hasToken && seen) = true
      · rw [if_pos cancelled] at brings ⊢
        rw [Fate.first?_cons_of_some brings, run_of_isOver (.inl ⟨_, rfl⟩), Guard.settle_eq]
        exact ⟨rfl, rfl⟩
      rw [if_neg cancelled] at brings ⊢
      match ending : f.work.poll.1 with
      | some e =>
        rw [ending] at brings
        rw [Fate.first?_cons_of_some brings]
        simp only [ending]
        rw [run_of_isOver (.inl ⟨_, rfl⟩), Guard.settle_eq]
        exact ⟨rfl, (Fate.answer?_worked e).symm⟩
      | none =>
        rw [ending] at brings
        rw [Fate.first?_cons_of_none brings ending]
        simp only [ending]
        exact ih (f := { f with work := f.work.poll.2, stage := .aloft g }) rfl

/-- The future with its guard set up. -/
def begun (f : Flight) (clock : Stamp) : Flight := { f with stage := .aloft (f.guard clock) }

/-- The first poll of a future sets up the guard, and then does what every poll does. -/
theorem step_parked (parked : f.stage = .parked) (seen : Bool) :
    f.step elapsed (.poll clock seen) = (f.begun clock).step elapsed (.poll clock seen) := by
  simp only [step, parked]
  rfl

theorem run_parked (parked : f.stage = .parked) (seen : Bool) :
    f.run ((elapsed, .poll clock seen) :: ts) =
      (f.begun clock).run ((elapsed, .poll clock seen) :: ts) := by
  rw [run_cons, run_cons, step_parked parked]

/-! ### The call of a flight -/

/-- The call of a future that was first polled at some moment, with its attempt standing so. -/
def call (f : Flight) (clock : Stamp) (attempt : Attempt) : Call :=
  { target := f.target, session := f.session, startedAt := clock, attempt := attempt }

/-- How far a future has come, and how the attempt of its call stands. -/
inductive Shows (clock : Stamp) (f : Flight) : Attempt → Prop
  | aloft : f.stage = .aloft (f.guard clock) → Shows clock f .working
  | landed (o : Outcome) : f.stage = .landed o.answer → Shows clock f (.settled o)
  | lost : f.stage = .lost → Shows clock f .dropped

/-- A touch submits what it makes the call submit. -/
theorem Shows.step (h : f.Shows clock attempt) (elapsed : Span) (t : Touch) :
    ∃ next, (f.call clock attempt).step elapsed (f.event t) =
        ((f.step elapsed t).1.call clock next, (f.step elapsed t).2) ∧
      (f.step elapsed t).1.Shows clock next := by
  cases h with
  | landed o stage =>
    refine ⟨.settled o, ?_, ?_⟩ <;> cases t <;> simp only [Flight.step, stage]
    · rfl
    · rfl
    · exact .landed o stage
    · exact .landed o stage
  | lost stage =>
    refine ⟨.dropped, ?_, ?_⟩ <;> cases t <;> simp only [Flight.step, stage]
    · rfl
    · rfl
    · exact .lost stage
    · exact .lost stage
  | aloft stage =>
    cases t with
    | drop =>
      refine ⟨.dropped, ?_, ?_⟩ <;> simp only [Flight.step, stage]
      · rfl
      · exact .lost rfl
    | poll now seen =>
      have polled : f.step elapsed (.poll now seen) = f.advance (f.guard clock) elapsed seen := by
        rw [Flight.step, stage]
      rw [polled, advance, event]
      by_cases cancelled : (f.hasToken && seen) = true
      · rw [if_pos cancelled, cancelled]
        exact ⟨.settled .cancelled, rfl, .landed _ rfl⟩
      rw [if_neg cancelled, eq_false_of_ne_true cancelled]
      match ending : f.work.poll.1 with
      | some e =>
        simp only [ending]
        exact ⟨.settled e.outcome, rfl, .landed _ rfl⟩
      | none =>
        simp only [ending]
        exact ⟨.working, rfl, .aloft rfl⟩

/-- What a future has answered is the answer to the outcome of its call. -/
theorem Shows.settled (h : f.Shows clock attempt) {answer : CallResult}
    (given : f.answer? = some answer) : ∃ o, attempt = .settled o ∧ o.answer = answer := by
  cases h with
  | aloft stage => simp [answer?, stage] at given
  | lost stage => simp [answer?, stage] at given
  | landed o stage =>
    rw [answer?, stage, Option.some.injEq] at given
    exact ⟨o, rfl, given⟩

/-- Touches submit what they make the call submit. -/
theorem Shows.run (h : f.Shows clock attempt) (ts : List (Span × Touch)) :
    ∃ next, (f.call clock attempt).run (f.events ts) =
        ((f.run ts).1.call clock next, (f.run ts).2) ∧ (f.run ts).1.Shows clock next := by
  induction ts generalizing f attempt with
  | nil => exact ⟨attempt, rfl, h⟩
  | cons head rest ih =>
    obtain ⟨elapsed, t⟩ := head
    obtain ⟨between, stepped, shows⟩ := h.step elapsed t
    obtain ⟨next, ran, shows⟩ := ih shows
    refine ⟨next, ?_, shows⟩
    rw [events, Call.run, stepped]
    simp only [ran]
    rfl

/-- A future is a closer look at a call: from its first poll on both submit the same records, and
the caller of a future that has answered learns what the caller of the call learns. -/
theorem run_eq_call (parked : f.stage = .parked) (seen : Bool) :
    let touches := (elapsed, .poll clock seen) :: ts
    let call := (f.call clock .working).run (f.events touches)
    (f.run touches).2 = call.2 ∧
      ∀ answer, (f.run touches).1.answer? = some answer →
        ∀ bound : Bound, bound.result call.1.attempt = answer := by
  intro touches call
  have begun : (f.begun clock).Shows clock .working := .aloft rfl
  obtain ⟨next, ran, shows⟩ := begun.run touches
  have events : (f.begun clock).events touches = f.events touches := by
    rw [Flight.events, Flight.events, step_parked parked]
    rfl
  rw [events, ← run_parked parked] at ran
  rw [← run_parked parked] at shows
  have same : call = ((f.run touches).1.call clock next, (f.run touches).2) := ran
  refine ⟨by rw [same], fun answer given bound ↦ ?_⟩
  obtain ⟨o, settled, answers⟩ := shows.settled given
  rw [same, settled, ← answers]
  exact bound.result_settled o

end Flight

/-! ### What reaches the queue -/

namespace Sink

/-- Offers records one after the other: the queue after it. -/
def offerAll (s : Sink) (rs : List Record) : Sink :=
  rs.foldl (fun s r ↦ (s.offer (.record r)).2.2) s

/-- A record that is offered to a queue with a store behind it waits in it or is counted as lost. -/
theorem offerAll_singleton {s : Sink} (enabled : s.enabled = true) (r : Record) :
    s.offerAll [r] = { s with queue := s.queue ++ [.write (.record r)] } ∨
      s.offerAll [r] = { s with dropped := s.dropped + 1 } := by
  cases taken : (s.offer (.record r)).1 with
  | true => exact .inl (offer_accepted taken)
  | false => exact .inr (offer_refused enabled taken)

end Sink

namespace Flight

/-- From its first poll on a call submits exactly one record when it ends, and none before. The
record is of its registration and session and says how it ended; it reaches the queue, or is counted
as lost there. A call that is not dropped answers that it was cancelled exactly if its record says
so, and otherwise that all went well. -/
theorem submits_once (target : Target) (session : Int) (hasToken : Bool) (work : Work)
    (clock : Stamp) (seen : Bool) (elapsed : Span) (ts : List (Span × Touch)) (sink : Sink)
    (enabled : sink.enabled = true) :
    let f : Flight := { target := target, session := session, hasToken := hasToken, work := work }
    let touches := (elapsed, .poll clock seen) :: ts
    let after := f.run touches
    match Fate.first? work hasToken touches with
    | some (duration, fate) =>
      ∃ r, after.2 = [r] ∧ r.target = target ∧ r.session = session ∧ r.startedAt = clock ∧
        r.duration = duration ∧ fate.Tells r ∧
        (sink.offerAll after.2 = { sink with queue := sink.queue ++ [.write (.record r)] } ∨
          sink.offerAll after.2 = { sink with dropped := sink.dropped + 1 }) ∧
        (after.1.answer?.isSome ↔ fate ≠ .abandoned) ∧
        ∀ answer, after.1.answer? = some answer →
          answer = if r.status = .cancelled then .cancelled else .ok
    | none => after.2 = [] ∧ after.1.isAloft = true ∧ sink.offerAll after.2 = sink := by
  intro f touches after
  have told := run_aloft touches (f := f.begun clock) rfl rfl
  rw [← run_parked rfl] at told
  dsimp only [f, begun] at told
  match first : Fate.first? work hasToken touches with
  | none =>
    rw [first] at told
    exact ⟨told.1, told.2, by rw [told.1]; rfl⟩
  | some (duration, fate) =>
    rw [first] at told
    obtain ⟨submitted, answered⟩ := told
    have tells := fate.tells_ofOutcome target session clock duration
    refine ⟨_, submitted, rfl, rfl, rfl, rfl, tells, ?_, ?_, ?_⟩
    · rw [submitted]
      exact Sink.offerAll_singleton enabled _
    · rw [answered]
      exact fate.isSome_answer?
    · intro answer given
      rw [answered] at given
      exact (fate.answer_eq given).trans (by rw [← tells.status]; rfl)

/-- Work that is pending once, a token that is cancelled after that, and a future that is dropped
when it has answered. -/
theorem submits_once_of_token :
    let f : Flight := ⟨⟨.job, 4⟩, 7, true, ⟨1, some .returned⟩, .parked⟩
    let touches : List (Span × Touch) :=
      [(⟨0⟩, .poll (.ofMicros 0) false), (⟨5⟩, .poll (.ofMicros 5) true), (⟨6⟩, .drop)]
    ∃ r, (f.run touches).2 = [r] ∧ r.session = 7 ∧ r.status = .cancelled ∧
      (f.run touches).1.answer? = some .cancelled := by
  obtain ⟨r, submitted, -, session, -, -, tells, -, answers, answered⟩ :=
    submits_once ⟨.job, 4⟩ 7 true ⟨1, some .returned⟩ (.ofMicros 0) false ⟨0⟩
      [(⟨5⟩, .poll (.ofMicros 5) true), (⟨6⟩, .drop)] { room := 1 } rfl
  have status : r.status = .cancelled := tells.status
  obtain ⟨answer, given⟩ := Option.isSome_iff_exists.1 (answers.2 (by decide))
  rw [answered answer given, if_pos status] at given
  exact ⟨r, submitted, session, status, given⟩

end Flight

end Supervision
