import Supervision.Fanout

/-!
# Emissions and steps of workers

What an emission does is known worker by worker (`Fanout.workers_emit`), because no offer looks at
another queue; and it reports exactly the queues that refused the event, in the order of the
subscribers, unless the event is itself the report of an overflow (`Fanout.reports_emit`).

What a step can make of a worker is listed once (`Worker.Stride`).
-/

namespace Supervision

/-- The payload of a panic. -/
def Reaction.payload? : Reaction → Option Payload
  | panics _ payload => some payload
  | returns _ | refuses => none

namespace Worker

/-! ### Steps -/

/-- What a step can make of a worker, and what it reports. -/
inductive Stride (s : Subscriber) (now : Nat) (closed : Bool) (w : Worker) :
    Worker → List Event → Prop
  /-- There is nothing to do. -/
  | rests (idle : w.isEnabled now closed = false) : Stride s now closed w w []
  /-- Nothing will come any more. -/
  | ends (at_ : w.stage = .receiving) (empty : w.queue = []) (closes : closed = true) :
    Stride s now closed w { w with stage := .ended } []
  /-- The subscriber takes its worker down. -/
  | dies {e : Event} {rest : List Event} (at_ : w.stage = .receiving) (next : w.queue = e :: rest)
    (reacts : s.react w.taken.size e = .refuses) :
    Stride s now closed w { w with queue := [], taken := w.taken.push e, stage := .dead } []
  /-- The subscriber begins to handle an event. -/
  | begins {e : Event} {rest : List Event} {reaction : Reaction} (at_ : w.stage = .receiving)
    (next : w.queue = e :: rest) (reacts : s.react w.taken.size e = reaction)
    (lasts : 0 < reaction.delay) :
    Stride s now closed w
      { w with
        queue := rest
        taken := w.taken.push e
        stage := .handling e (now + reaction.delay) reaction.payload? } []
  /-- The subscriber handles an event at once. -/
  | handles {e : Event} {rest : List Event} (at_ : w.stage = .receiving)
    (next : w.queue = e :: rest) (reacts : s.react w.taken.size e = .returns 0) :
    Stride s now closed w
      { w with
        queue := rest
        taken := w.taken.push e
        handled := w.handled.push e
        stage := .receiving } []
  /-- The subscriber panics over an event at once. -/
  | panics {e : Event} {rest : List Event} {payload : Payload} (at_ : w.stage = .receiving)
    (next : w.queue = e :: rest) (reacts : s.react w.taken.size e = .panics 0 payload) :
    Stride s now closed w
      { w with queue := rest, taken := w.taken.push e, stage := .receiving }
      [.panicked s.name payload.message]
  /-- The handling of an event comes to its end. -/
  | finishes {e : Event} {due : Nat} (at_ : w.stage = .handling e due none) (gone : due ≤ now) :
    Stride s now closed w { w with stage := .receiving, handled := w.handled.push e } []
  /-- The handling of an event comes to its end in a panic. -/
  | breaks {e : Event} {due : Nat} {payload : Payload}
    (at_ : w.stage = .handling e due (some payload)) (gone : due ≤ now) :
    Stride s now closed w { w with stage := .receiving } [.panicked s.name payload.message]

/-- What a step does is one of these. -/
theorem stride_step (s : Subscriber) (now : Nat) (closed : Bool) (w : Worker) :
    w.Stride s now closed (w.step s now closed).1 (w.step s now closed).2 := by
  rw [step]
  split
  case h_1 at_ =>
    split
    case h_1 empty =>
      cases closed with
      | true => exact .ends at_ empty rfl
      | false => exact .rests (by rw [isEnabled, at_, empty]; rfl)
    case h_2 e rest next =>
      dsimp only
      cases reacts : s.react w.taken.size e with
      | refuses => exact .dies at_ next reacts
      | returns delay =>
        rw [if_neg (by simp)]
        by_cases now_ : delay = 0
        · subst now_
          exact .handles at_ next reacts
        · rw [if_neg (show ¬ (Reaction.returns delay).delay = 0 from now_)]
          exact .begins at_ next reacts (Nat.pos_of_ne_zero now_)
      | panics delay payload =>
        rw [if_neg (by simp)]
        by_cases now_ : delay = 0
        · subst now_
          exact .panics at_ next reacts
        · rw [if_neg (show ¬ (Reaction.panics delay payload).delay = 0 from now_)]
          exact .begins at_ next reacts (Nat.pos_of_ne_zero now_)
  case h_2 e due ending at_ =>
    by_cases gone : due ≤ now
    · rw [if_pos gone]
      cases ending with
      | none => exact .finishes at_ gone
      | some payload => exact .breaks at_ gone
    · rw [if_neg gone]
      exact .rests (by rw [isEnabled, at_]; exact decide_eq_false gone)
  case h_3 at_ => exact .rests (by rw [isEnabled, at_])
  case h_4 at_ => exact .rests (by rw [isEnabled, at_])

section Stride

variable {s : Subscriber} {now : Nat} {closed : Bool} {w w' : Worker} {reports : List Event}

/-- What a worker reports are panics. -/
theorem Stride.kind_of_mem (h : w.Stride s now closed w' reports) {e : Event} (mem : e ∈ reports) :
    e.kind = .subscriberPanicked := by
  cases h with
  | panics => rw [List.mem_singleton.mp mem]; rfl
  | breaks => rw [List.mem_singleton.mp mem]; rfl
  | rests | ends | dies | begins | handles | finishes => cases mem

theorem Stride.offers (h : w.Stride s now closed w' reports) : w'.offers = w.offers := by
  cases h <;> rfl

/-- What was taken comes off the queue. -/
theorem Stride.taken (h : w.Stride s now closed w' reports) :
    (w'.taken = w.taken ∧ w'.queue = w.queue) ∨
      ∃ e rest, w.stage = .receiving ∧ w.queue = e :: rest ∧ w'.taken = w.taken.push e ∧
        (w'.queue = rest ∨ w'.queue = []) := by
  cases h with
  | rests | ends | finishes | breaks => exact .inl ⟨rfl, rfl⟩
  | dies at_ next => exact .inr ⟨_, _, at_, next, rfl, .inr rfl⟩
  | begins at_ next | handles at_ next | panics at_ next =>
    exact .inr ⟨_, _, at_, next, rfl, .inl rfl⟩

/-- A step handles one event to the end at most. -/
theorem Stride.handled (h : w.Stride s now closed w' reports) :
    w'.handled = w.handled ∨ ∃ e, w'.handled = w.handled.push e := by
  cases h with
  | handles | finishes => exact .inr ⟨_, rfl⟩
  | rests | ends | dies | begins | panics | breaks => exact .inl rfl

/-- Whoever is over stays so. -/
theorem Stride.isOver (h : w.Stride s now closed w' reports) (gone : w.isOver = true) :
    w'.isOver = true := by
  rw [Worker.isOver] at gone
  cases h with
  | rests => exact gone
  | ends => rfl
  | dies => rfl
  | begins at_ | handles at_ | panics at_ | finishes at_ | breaks at_ =>
    rw [at_] at gone
    cases gone

/-- A worker that was offered nothing yet has nothing to do. -/
theorem Stride.of_idle (h : Stride s now false {} w' reports) : w' = {} := by
  cases h with
  | rests => rfl
  | ends _ _ closes => cases closes
  | dies _ next | begins _ next | handles _ next | panics _ next => cases next
  | finishes at_ | breaks at_ => cases at_

end Stride

end Worker

namespace Fanout

variable {subs : Array Subscriber} {e : Event} {f : Fanout}

/-- A step of a worker that is there. -/
theorem step_eq {now i : Nat} {s : Subscriber} {w : Worker} (at_ : subs[i]? = some s)
    (here : f.workers[i]? = some w) :
    f.step subs now i =
      ({ f with workers := f.workers.setIfInBounds i (w.step s now f.closed).1 },
        (w.step s now f.closed).2) := by
  rw [step, at_, here]

/-- Without a subscriber nobody takes a step. -/
theorem step_of_none {now i : Nat} (at_ : subs[i]? = none) : f.step subs now i = (f, []) := by
  rw [step, at_]

theorem closed_step {now i : Nat} : (f.step subs now i).1.closed = f.closed := by
  rw [step]
  split <;> rfl

theorem size_step {now i : Nat} : (f.step subs now i).1.workers.size = f.workers.size := by
  rw [step]
  split
  · exact Array.size_setIfInBounds
  · rfl

/-- A step is one of one worker, and leaves the others alone. -/
theorem stride_step {now i j : Nat} {w' : Worker}
    (there : (f.step subs now i).1.workers[j]? = some w') :
    f.workers[j]? = some w' ∨ ∃ s w reports, subs[j]? = some s ∧ f.workers[j]? = some w ∧
      w.Stride s now f.closed w' reports := by
  rw [step] at there
  split at there
  · rename_i s w at_ here
    rw [Array.getElem?_setIfInBounds] at there
    by_cases same : i = j
    · subst same
      obtain ⟨inside, -⟩ := Array.getElem?_eq_some_iff.mp here
      rw [if_pos rfl, if_pos inside] at there
      cases there
      exact .inr ⟨s, w, _, at_, here, w.stride_step s now f.closed⟩
    · rw [if_neg same] at there
      exact .inl there
  · exact .inl there

/-- Nobody takes a step of another worker. -/
theorem getElem?_step_of_ne {now i j : Nat} (ne : i ≠ j) :
    (f.step subs now i).1.workers[j]? = f.workers[j]? := by
  rw [step]
  split
  · exact Array.getElem?_setIfInBounds_ne ne
  · rfl

/-- What the workers report are panics. -/
theorem kind_of_mem_step {now i : Nat} {r : Event} (h : r ∈ (f.step subs now i).2) :
    r.kind = .subscriberPanicked := by
  rw [step] at h
  split at h
  · exact (Worker.stride_step _ _ _ _).kind_of_mem h
  · exact absurd h List.not_mem_nil

/-! ### Emissions -/

/-- A worker after an event was offered to it. -/
def offered (subs : Array Subscriber) (e : Event) (i : Nat) (w : Worker) : Worker :=
  match subs[i]? with
  | some s => (w.offer s.queueRoom e).2
  | none => w

theorem handled_offered (i : Nat) (w : Worker) : (offered subs e i w).handled = w.handled := by
  rw [offered]
  split <;> rfl

theorem getElem?_offer (i j : Nat) :
    (f.offer subs e i).1.workers[j]? =
      if j = i then f.workers[i]?.map (offered subs e i) else f.workers[j]? := by
  rw [offer]
  split
  case h_1 s w at_ here =>
    rw [Array.getElem?_setIfInBounds]
    by_cases same : j = i
    · subst same
      obtain ⟨inside, -⟩ := Array.getElem?_eq_some_iff.mp here
      rw [if_pos rfl, if_pos rfl, if_pos inside, here, Option.map_some, offered, at_]
    · rw [if_neg (Ne.symm same), if_neg same]
  case h_2 missing =>
    by_cases same : j = i
    · subst same
      rw [if_pos rfl]
      cases here : f.workers[j]? with
      | none => rfl
      | some w =>
        rw [Option.map_some, offered]
        split
        · rename_i s at_
          exact absurd here (missing s w at_)
        · rfl
    · rw [if_neg same]

theorem closed_offer (i : Nat) : (f.offer subs e i).1.closed = f.closed := by
  rw [offer]
  split <;> rfl

/-- What is reported of one offer depends on that worker only. -/
theorem reports_offer_congr {f' : Fanout} {i : Nat} (h : f'.workers[i]? = f.workers[i]?) :
    (f'.offer subs e i).2 = (f.offer subs e i).2 := by
  rw [offer, offer, h]
  split <;> rfl

/-- The offers to the first `k` subscribers. -/
def emitTo (subs : Array Subscriber) (e : Event) (f : Fanout) (k : Nat) : Fanout × List Event :=
  (List.range k).foldl (fun (f, reports) i ↦
    let (f, more) := offer subs e f i
    (f, reports ++ more)) (f, [])

theorem emitTo_succ (k : Nat) :
    f.emitTo subs e (k + 1) =
      (((f.emitTo subs e k).1.offer subs e k).1,
        (f.emitTo subs e k).2 ++ ((f.emitTo subs e k).1.offer subs e k).2) := by
  rw [emitTo, emitTo, List.range_succ, List.foldl_append]
  rfl

/-- So far the first `k` workers have been offered the event, and no other. -/
theorem getElem?_emitTo (k i : Nat) :
    (f.emitTo subs e k).1.workers[i]? =
      if i < k then f.workers[i]?.map (offered subs e i) else f.workers[i]? := by
  induction k with
  | zero => rw [if_neg (Nat.not_lt_zero i)]; rfl
  | succ k ih =>
    rw [emitTo_succ, getElem?_offer]
    by_cases here : i = k
    · subst here
      rw [if_pos rfl, ih, if_neg (Nat.lt_irrefl i), if_pos (Nat.lt_succ_self i)]
    · rw [if_neg here, ih]
      congr 1
      exact propext ⟨fun lt ↦ by omega, fun lt ↦ by omega⟩

theorem reports_emitTo (k : Nat) :
    (f.emitTo subs e k).2 = (List.range k).flatMap fun i ↦ (f.offer subs e i).2 := by
  induction k with
  | zero => rfl
  | succ k ih =>
    have here : (f.emitTo subs e k).1.workers[k]? = f.workers[k]? := by
      rw [getElem?_emitTo, if_neg (Nat.lt_irrefl k)]
    rw [emitTo_succ, ih, reports_offer_congr here, List.range_succ, List.flatMap_append,
      List.flatMap_singleton]

/-- **An emission offers the event to every worker.** -/
theorem workers_emit (i : Nat) :
    (f.emit subs e).1.workers[i]? = f.workers[i]?.map (offered subs e i) := by
  show (f.emitTo subs e f.workers.size).1.workers[i]? = _
  rw [getElem?_emitTo]
  by_cases inside : i < f.workers.size
  · rw [if_pos inside]
  · rw [if_neg inside, Array.getElem?_eq_none (by omega)]
    rfl

/-- **An emission reports what the offers report.** -/
theorem reports_emit :
    (f.emit subs e).2 = (List.range f.workers.size).flatMap fun i ↦ (f.offer subs e i).2 :=
  reports_emitTo f.workers.size

theorem size_emit : (f.emit subs e).1.workers.size = f.workers.size := by
  have same (i : Nat) : (f.emit subs e).1.workers[i]? = none ↔ f.workers[i]? = none := by
    rw [workers_emit, Option.map_eq_none_iff]
  simp only [Array.getElem?_eq_none_iff] at same
  have := (same f.workers.size).mpr (Nat.le_refl _)
  have := (same (f.emit subs e).1.workers.size).mp (Nat.le_refl _)
  omega

theorem closed_emit : (f.emit subs e).1.closed = f.closed := by
  suffices h : ∀ k, (f.emitTo subs e k).1.closed = f.closed from h f.workers.size
  intro k
  induction k with
  | zero => rfl
  | succ k ih => rw [emitTo_succ, closed_offer, ih]

end Fanout

end Supervision
