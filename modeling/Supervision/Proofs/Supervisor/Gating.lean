import Supervision.Proofs.Supervisor.CycleSteps
import Supervision.Proofs.Supervisor.Effects
import Supervision.Proofs.Supervisor.Waits

/-!
# Startup is gated

What a cycle has seen ready stands in the chronicle, and so do its calls of hooks. Only the cycle
itself enters either. It enters that it has seen a resource ready only when that is so, and it calls
its start hook only after it has entered this for everything that its resource depends on.

The wait of a cycle and its record in the chronicle agree as long as it waits (`IsRecorded`); every
change of others leaves the record alone, and each thing that the cycle can do in a step keeps it.

* `Step.sees` — what a cycle says that it has seen was so.
* `Step.isRecorded` — the record is kept.
-/

namespace Supervision

namespace Entry

/-- It tells neither that cycle `i` calls its start hook nor what it has seen ready. -/
def IsSilentOf (i : Nat) (x : Entry) : Prop :=
  x.what ≠ .called i .start ∧ ∀ ps, x.what ≠ .sawReady (.cycle i) ps

/-- What cycle `i` has seen ready, if the entry tells of that. -/
def seen? (i : Nat) (x : Entry) : Option (List Nat) :=
  match x.what with
  | .sawReady (.cycle k) ps => if k = i then some ps else none
  | _ => none

theorem seen?_eq_some_iff {i : Nat} {x : Entry} {ps : List Nat} :
    x.seen? i = some ps ↔ x.what = .sawReady (.cycle i) ps := by
  unfold seen?
  split
  · rename_i k qs h
    rw [h]
    by_cases hk : k = i
    · subst hk
      simp
    · simp [hk]
  · rename_i h
    constructor
    · nofun
    · exact fun e ↦ absurd e (h i ps)

theorem IsSilentOf.seen? {i : Nat} {x : Entry} (h : x.IsSilentOf i) : x.seen? i = none := by
  cases told : x.seen? i with
  | none => rfl
  | some ps => exact absurd (seen?_eq_some_iff.1 told) (h.2 ps)

/-- Others do not speak for a cycle. -/
theorem isSilentOf_of_isBy {i : Nat} {who : Option Task} {x : Entry} (by_ : x.what.IsBy who)
    (other : who ≠ some (.cycle i)) : x.IsSilentOf i := by
  refine ⟨fun called ↦ ?_, fun ps saw ↦ ?_⟩
  · rw [called] at by_
    exact other by_
  · rw [saw] at by_
    exact other by_

end Entry

namespace State

variable {S : Setup} {i p q : Nat} {c : Cycle} {s t : State} {needs : List Nat}

/-! ### What a cycle has seen -/

/-- What cycle `i` has seen ready, by the chronicle. -/
def seen (i : Nat) (s : State) : List Nat := (s.view (Entry.seen? i)).flatten

/-- Cycle `i` has called its start hook. -/
def HasCalled (i : Nat) (s : State) : Prop := ∃ x ∈ s.chronicle, x.what = .called i .start

/-- Whenever cycle `i` called its start hook, it had seen ready before whatever was needed. -/
def IsCovered (needs : List Nat) (i : Nat) (s : State) : Prop :=
  ∀ (j : Nat) (x : Entry), s.chronicle[j]? = some x → x.what = .called i .start →
    ∀ q ∈ needs, ∃ (k : Nat) (y : Entry) (ps : List Nat), k < j ∧ s.chronicle[k]? = some y ∧
      y.what = .sawReady (.cycle i) ps ∧ q ∈ ps

/-- Cycle `i` is silent: from one state to another, nothing is entered of its sights and its
start. -/
abbrev IsSilent (i : Nat) (s t : State) : Prop := Enters (fun x ↦ x.IsSilentOf i) s t

theorem mem_seen_iff :
    q ∈ s.seen i ↔ ∃ (k : Nat) (x : Entry) (ps : List Nat), s.chronicle[k]? = some x ∧
      x.what = .sawReady (.cycle i) ps ∧ q ∈ ps := by
  unfold seen view
  rw [List.mem_flatten]
  constructor
  · rintro ⟨ps, told, hq⟩
    obtain ⟨x, hx, saw⟩ := List.mem_filterMap.1 told
    obtain ⟨k, hk⟩ := List.getElem?_of_mem hx
    exact ⟨k, x, ps, (Array.getElem?_toList).symm.trans hk, Entry.seen?_eq_some_iff.1 saw, hq⟩
  · rintro ⟨k, x, ps, hk, saw, hq⟩
    exact ⟨ps, List.mem_filterMap.2 ⟨x, Array.mem_toList_iff.2 (Array.mem_of_getElem? hk),
      Entry.seen?_eq_some_iff.2 saw⟩, hq⟩

theorem seen_enter_sawReady (ps : List Nat) (s : State) :
    (s.enter (.sawReady (.cycle i) ps)).seen i = s.seen i ++ ps := by
  have told : Entry.seen? i ⟨s.now, .sawReady (.cycle i) ps⟩ = some ps :=
    Entry.seen?_eq_some_iff.2 rfl
  unfold seen
  rw [view_enter, told, List.flatten_append]
  simp

theorem seen_noteSeen (ps : List Nat) (s : State) : (s.noteSeen i ps).seen i = s.seen i ++ ps := by
  unfold noteSeen
  split
  · rename_i none
    rw [List.isEmpty_iff.1 none, List.append_nil]
  · exact seen_enter_sawReady ps s

theorem IsSilent.seen (h : IsSilent i s t) : t.seen i = s.seen i := by
  obtain ⟨more, chronicle, silent⟩ := h
  have nothing : more.filterMap (Entry.seen? i) = [] :=
    List.filterMap_eq_nil_iff.2 fun x hx ↦ (silent x hx).seen?
  unfold State.seen view
  rw [chronicle, Array.toList_append, List.filterMap_append, List.toList_toArray, nothing,
    List.append_nil]

theorem IsSilent.hasCalled (h : IsSilent i s t) : t.HasCalled i ↔ s.HasCalled i := by
  constructor
  · rintro ⟨x, hx, called⟩
    rcases h.mem hx with old | silent
    · exact ⟨x, old, called⟩
    · exact absurd called silent.1
  · rintro ⟨x, hx, called⟩
    exact ⟨x, h.mem_of_mem hx, called⟩

theorem IsSilent.isCovered (h : IsSilent i s t) (hs : s.IsCovered needs i) :
    t.IsCovered needs i := by
  intro j x hj called q hq
  rcases h.getElem?_cases hj with old | ⟨-, silent⟩
  · obtain ⟨k, y, ps, hk, hy, saw⟩ := hs j x old called q hq
    exact ⟨k, y, ps, hk, h.getElem? hy, saw⟩
  · exact absurd called silent.1

/-! ### The record of a cycle -/

/-- The record of cycle `i` agrees with where it stands. -/
structure IsRecorded (S : Setup) (i : Nat) (s : State) : Prop where
  /-- Before its first look, it has neither called its start hook nor seen anything. -/
  quiet : (∀ c, s.cycles[i]? = some c → c.stage = .fresh ∨ c.stage = .gated none) →
    ∀ x ∈ s.chronicle, x.IsSilentOf i
  /-- While it waits, its wait has settled what it has seen. -/
  tracks : ∀ c w, s.cycles[i]? = some c → c.stage = .gated (some w) →
    ¬ s.HasCalled i ∧ w.Tracks (S.needs c.place) (s.seen i)
  /-- In a hook, it has called its start hook. -/
  hooks : ∀ c hook acts wake exit, s.cycles[i]? = some c → c.stage = .inside hook acts wake exit →
    s.HasCalled i
  /-- It has called its start hook only after it had seen what it needs. -/
  covered : ∀ c, s.cycles[i]? = some c → s.IsCovered (S.needs c.place) i

theorem isCovered_of_not_hasCalled (uncalled : ¬ t.HasCalled i) : t.IsCovered needs i :=
  fun _ x hj called ↦ absurd ⟨x, Array.mem_of_getElem? hj, called⟩ uncalled

/-- What is to be shown for the record of a cycle that stands as `c`. -/
theorem isRecorded_of_stage (hc : t.cycles[i]? = some c)
    (quiet : c.stage = .fresh ∨ c.stage = .gated none → ∀ x ∈ t.chronicle, x.IsSilentOf i)
    (tracks : ∀ w, c.stage = .gated (some w) →
      ¬ t.HasCalled i ∧ w.Tracks (S.needs c.place) (t.seen i))
    (hooks : ∀ hook acts wake exit, c.stage = .inside hook acts wake exit → t.HasCalled i)
    (covered : t.IsCovered (S.needs c.place) i) : t.IsRecorded S i where
  quiet early := quiet (early c hc)
  tracks b w hb gated := by
    rw [hc] at hb
    cases hb
    exact tracks w gated
  hooks b hook acts wake exit hb inside := by
    rw [hc] at hb
    cases hb
    exact hooks hook acts wake exit inside
  covered b hb := by
    rw [hc] at hb
    cases hb
    exact covered

/-- A cycle that is silent and stays where it is, or ends, or is new, keeps its record. -/
theorem IsRecorded.of_silent (h : s.IsRecorded S i) (silent : IsSilent i s t)
    (stays : ∀ c, s.cycles[i]? = some c → ∃ c', t.cycles[i]? = some c')
    (cycle : ∀ c', t.cycles[i]? = some c' → (∃ c, s.cycles[i]? = some c ∧ c'.place = c.place ∧
        (c'.stage = c.stage ∨ c'.stage = .finished)) ∨
      s.cycles[i]? = none ∧ c'.stage = .fresh) : t.IsRecorded S i where
  quiet early := by
    have old : ∀ x ∈ s.chronicle, x.IsSilentOf i := by
      refine h.quiet fun c hc ↦ ?_
      obtain ⟨c', hc'⟩ := stays c hc
      rcases cycle c' hc' with ⟨b, hb, -, same | isOver⟩ | ⟨none, -⟩
      · rw [hc] at hb
        cases hb
        exact same ▸ early c' hc'
      · rcases early c' hc' with fresh | gated
        · rw [isOver] at fresh
          cases fresh
        · rw [isOver] at gated
          cases gated
      · rw [hc] at none
        cases none
    intro x hx
    rcases silent.mem hx with before | now
    · exact old x before
    · exact now
  tracks c' w hc' gated := by
    rcases cycle c' hc' with ⟨c, hc, place, same | isOver⟩ | ⟨-, fresh⟩
    · obtain ⟨uncalled, tracks⟩ := h.tracks c w hc (same ▸ gated)
      refine ⟨fun called ↦ uncalled (silent.hasCalled.1 called), ?_⟩
      rw [silent.seen, place]
      exact tracks
    · rw [isOver] at gated
      cases gated
    · rw [fresh] at gated
      cases gated
  hooks c' hook acts wake exit hc' inside := by
    rcases cycle c' hc' with ⟨c, hc, -, same | isOver⟩ | ⟨-, fresh⟩
    · exact silent.hasCalled.2 (h.hooks c hook acts wake exit hc (same ▸ inside))
    · rw [isOver] at inside
      cases inside
    · rw [fresh] at inside
      cases inside
  covered c' hc' := by
    rcases cycle c' hc' with ⟨c, hc, place, -⟩ | ⟨none, -⟩
    · rw [place]
      exact silent.isCovered (h.covered c hc)
    · refine silent.isCovered fun j x hj called ↦ ?_
      have never := h.quiet (by rw [none]; nofun) x (Array.mem_of_getElem? hj)
      exact absurd called never.1

/-! ### What a cycle enters -/

theorem isSilent_mark {m : Mark} (h : s.mark p m = .ok t) : IsSilent i s t := by
  have entered : Enters (s.IsEntryOf none) s t := enters_mark h
  exact entered.mono fun x hx ↦ Entry.isSilentOf_of_isBy hx.2 nofun

theorem isSilent_tryMark (p : Nat) (m : Mark) (s : State) : IsSilent i s (s.tryMark p m) := by
  unfold tryMark
  split
  · exact isSilent_mark ‹_›
  · exact .of_eq rfl

theorem isSilent_request (c : Cause) (s : State) : IsSilent i s (s.request c).2 := by
  have entered : Enters (s.IsEntryOf none) s (s.request c).2 := enters_request c s
  exact entered.mono fun x hx ↦ Entry.isSilentOf_of_isBy hx.2 nofun

theorem isSilent_endCycle (k : Nat) (s : State) : IsSilent i s (s.endCycle k) := by
  have ended : IsSilent i s (s.setCycle k .finished) := .of_eq rfl
  exact ended.enter ⟨nofun, nofun⟩

/-- A hook other than the start hook is called without a word of the start. -/
theorem isSilent_callHook {hook : Hook} (other : hook ≠ .start) (exit : Exit) (s : State) :
    IsSilent i s (s.callHook S i p hook exit) := by
  obtain ⟨b, members, -, e⟩ := callHook_eq S i p hook exit s
  rw [e]
  have put : IsSilent i s (({ s with members := members }).setCycle i
      (.inside hook (b.script hook) none exit)) := .of_eq rfl
  refine put.enter ⟨fun called ↦ ?_, nofun⟩
  cases called
  exact other rfl

theorem isSilent_settle (exit : Exit) (s : State) : IsSilent i s (s.settle p exit) := by
  unfold settle
  split
  · exact .of_eq rfl
  · exact isSilent_tryMark p _ s

/-- A cycle that breaks off says nothing of its start. -/
theorem isSilent_breakOff {h : Happening} (silent : Entry.IsSilentOf i ⟨s.now, h⟩) :
    IsSilent i s ((s.setCycle i .finished).enter h) :=
  .enter (.of_eq rfl) silent

/-- A cycle in a hook is past its start. -/
theorem HookStep.isSilent {hook : Hook} {acts : List Act} {exit : Exit}
    (h : HookStep S i p hook acts exit s t) : IsSilent i s t := by
  cases h with
  | rests => exact .of_eq rfl
  | @acts a u left wake act first fewer =>
    have acted : IsSilent i s u := by
      cases act with
      | idle => exact .of_eq rfl
      | mark hm act => exact isSilent_mark hm
      | note text => exact .enter (.of_eq rfl) ⟨nofun, nofun⟩
      | @request c text act => exact (isSilent_request c s).enter ⟨nofun, nofun⟩
    exact acted.trans (.of_eq rfl)
  | serves first hm =>
    have returned : IsSilent i s (s.enter (.returned i hook .clean)) :=
      .enter (.of_eq rfl) ⟨nofun, nofun⟩
    have other : Hook.serve ≠ .start := nofun
    exact (returned.trans (isSilent_mark hm)).trans (isSilent_callHook other _ _)
  | stops result before more =>
    have returned : IsSilent i s (s.enter (.returned i hook result)) :=
      .enter (.of_eq rfl) ⟨nofun, nofun⟩
    have other : Hook.stop ≠ .start := nofun
    exact returned.trans (isSilent_callHook other _ _)
  | settles result last =>
    have returned : IsSilent i s (s.enter (.returned i hook result)) :=
      .enter (.of_eq rfl) ⟨nofun, nofun⟩
    exact (returned.trans (isSilent_settle exit _)).trans (isSilent_endCycle i _)

/-- The wait of a cycle that looks agrees with its record. -/
theorem IsRecorded.awaits {before : Wait} (h : s.IsRecorded S i) (hc : s.cycles[i]? = some c)
    (looks : Awaits S c s before) :
    ¬ s.HasCalled i ∧ before.Tracks (S.needs c.place) (s.seen i) := by
  cases looks with
  | first gated near =>
    have silent := h.quiet fun b hb ↦ by
      rw [hc] at hb
      cases hb
      exact .inr gated
    have nothing : s.seen i = [] := by
      refine List.eq_nil_iff_forall_not_mem.2 fun q hq ↦ ?_
      obtain ⟨k, x, ps, hk, saw, -⟩ := mem_seen_iff.1 hq
      exact (silent x (Array.mem_of_getElem? hk)).2 ps saw
    rw [nothing]
    exact ⟨fun ⟨x, hx, called⟩ ↦ (silent x hx).1 called, Wait.tracks_start _ _ _⟩
  | again gated => exact h.tracks c _ hc gated

theorem seen_sights (before : Wait) (s : State) :
    (s.noteSeen i (s.sights before)).seen i = s.seen i ++ s.sights before :=
  seen_noteSeen _ s

theorem hasCalled_noteSeen {ps : List Nat} : (s.noteSeen i ps).HasCalled i ↔ s.HasCalled i := by
  unfold noteSeen
  split
  · exact .rfl
  · constructor
    · rintro ⟨x, hx, called⟩
      rcases Array.mem_push.1 hx with old | rfl
      · exact ⟨x, old, called⟩
      · cases called
    · rintro ⟨x, hx, called⟩
      exact ⟨x, Array.mem_push_of_mem _ hx, called⟩

/-- A cycle that has ended and has never called its start hook has nothing to account for. -/
theorem isRecorded_of_finished (hc : t.cycles[i]? = some c) (isOver : c.stage = .finished)
    (uncalled : ¬ t.HasCalled i) : t.IsRecorded S i := by
  refine isRecorded_of_stage hc (fun early ↦ ?_) (fun w gated ↦ ?_) (fun _ _ _ _ inside ↦ ?_)
    (isCovered_of_not_hasCalled uncalled)
  · rw [isOver] at early
    rcases early with fresh | gated
    · cases fresh
    · cases gated
  · rw [isOver] at gated
    cases gated
  · rw [isOver] at inside
    cases inside

/-- A cycle that begins has said nothing yet. -/
theorem IsRecorded.begins (h : s.IsRecorded S i) (hc : s.cycles[i]? = some c)
    (fresh : c.stage = .fresh) {m : Mark} (hm : s.mark c.place m = .ok t) :
    (t.setCycle i (.gated none)).IsRecorded S i := by
  have begun : (t.setCycle i (.gated none)).cycles[i]? = some { c with stage := .gated none } :=
    getElem?_setCycle_self _ (by rw [cycles_of_mark hm]; exact hc)
  have silent : IsSilent i s (t.setCycle i (.gated none)) := (isSilent_mark hm).trans (.of_eq rfl)
  have before : ∀ x ∈ s.chronicle, x.IsSilentOf i := by
    refine h.quiet fun b hb ↦ ?_
    rw [hc] at hb
    cases hb
    exact .inl fresh
  have never : ∀ x ∈ (t.setCycle i (.gated none)).chronicle, x.IsSilentOf i := fun x hx ↦
    (silent.mem hx).elim (before x) id
  exact isRecorded_of_stage begun (fun _ ↦ never) nofun nofun
    (isCovered_of_not_hasCalled fun ⟨x, hx, called⟩ ↦ (never x hx).1 called)

/-- A cycle that goes on waiting keeps track of what it sees. -/
theorem IsRecorded.waits (h : s.IsRecorded S i) (hc : s.cycles[i]? = some c) {before : Wait}
    (looks : Awaits S c s before) (going : (s.ensemble.look s.now before).result? = none) :
    ((s.noteSeen i (s.sights before)).setCycle i
      (.gated (some (s.ensemble.look s.now before)))).IsRecorded S i := by
  obtain ⟨uncalled, tracks⟩ := h.awaits hc looks
  have noted : (s.noteSeen i (s.sights before)).cycles[i]? = some c := getElem?_noteSeen hc
  have after := getElem?_setCycle_self (.gated (some (s.ensemble.look s.now before))) noted
  have silent : IsSilent i (s.noteSeen i (s.sights before))
      ((s.noteSeen i (s.sights before)).setCycle i
        (.gated (some (s.ensemble.look s.now before)))) := .of_eq rfl
  have never : ¬ ((s.noteSeen i (s.sights before)).setCycle i
      (.gated (some (s.ensemble.look s.now before)))).HasCalled i :=
    fun called ↦ uncalled (hasCalled_noteSeen.1 (silent.hasCalled.1 called))
  refine isRecorded_of_stage after nofun (fun w gated ↦ ?_) nofun
    (isCovered_of_not_hasCalled never)
  cases gated
  refine ⟨never, ?_⟩
  rw [silent.seen, seen_sights]
  exact tracks.look going

/-- A cycle in a hook has called its start hook, and says no more of its start. -/
theorem IsRecorded.goesOn (h : s.IsRecorded S i) (hc : s.cycles[i]? = some c) {hook : Hook}
    {acts : List Act} {wake : Option Nat} {exit : Exit}
    (inside : c.stage = .inside hook acts wake exit)
    (step : HookStep S i c.place hook acts exit s t) : t.IsRecorded S i := by
  have silent : IsSilent i s t := step.isSilent
  have called := silent.hasCalled.2 (h.hooks c _ _ _ _ hc inside)
  obtain ⟨d, hd, place, stays⟩ := step.cycle hc inside
  have covered : t.IsCovered (S.needs d.place) i := by
    rw [place]
    exact silent.isCovered (h.covered c hc)
  have past : d.stage ≠ .fresh ∧ ∀ w, d.stage ≠ .gated w := by
    rcases stays with ⟨_, _, _, _, e⟩ | e <;> rw [e] <;> exact ⟨nofun, nofun⟩
  exact isRecorded_of_stage hd (fun early ↦ absurd early (not_or_intro past.1 (past.2 none)))
    (fun w gated ↦ absurd gated (past.2 _)) (fun _ _ _ _ _ ↦ called) covered

/-- A cycle that calls its start hook has seen what it needs. -/
theorem isRecorded_callHook {before : Wait} (hc : s.cycles[i]? = some c)
    (uncalled : ¬ s.HasCalled i) (tracks : before.Tracks (S.needs c.place) (s.seen i))
    (ready : (s.ensemble.look s.now before).result? = some .ready) :
    ((s.noteSeen i (s.sights before)).callHook S i c.place .start .clean).IsRecorded S i := by
  have noted : (s.noteSeen i (s.sights before)).cycles[i]? = some c := getElem?_noteSeen hc
  obtain ⟨b, members, -, e⟩ := callHook_eq S i c.place .start .clean
    (s.noteSeen i (s.sights before))
  have after : ((s.noteSeen i (s.sights before)).callHook S i c.place .start .clean).cycles[i]?
      = some { c with stage := .inside .start (b.script .start) none .clean } := by
    rw [e]
    exact getElem?_setCycle_self (s := { s.noteSeen i (s.sights before) with members := members })
      _ noted
  have chronicle : ((s.noteSeen i (s.sights before)).callHook S i c.place .start .clean).chronicle
      = (s.noteSeen i (s.sights before)).chronicle.push
        ⟨(s.noteSeen i (s.sights before)).now, .called i .start⟩ := by
    rw [e]
    rfl
  have called :
      ((s.noteSeen i (s.sights before)).callHook S i c.place .start .clean).HasCalled i := by
    refine ⟨⟨(s.noteSeen i (s.sights before)).now, .called i .start⟩, ?_, rfl⟩
    rw [chronicle]
    exact Array.mem_push_self
  refine isRecorded_of_stage after nofun nofun (fun _ _ _ _ _ ↦ called) fun j x hj what q hq ↦ ?_
  have sees : q ∈ (s.noteSeen i (s.sights before)).seen i := by
    rw [seen_sights]
    exact tracks.of_ready ready hq
  obtain ⟨k, y, ps, hk, saw⟩ := mem_seen_iff.1 sees
  obtain ⟨hlt, -⟩ := Array.getElem?_eq_some_iff.1 hk
  rw [chronicle, Array.getElem?_push] at hj
  split at hj
  · rename_i last
    refine ⟨k, y, ps, last ▸ hlt, ?_, saw⟩
    rw [chronicle, Array.getElem?_push, if_neg (Nat.ne_of_lt hlt), hk]
  · exact absurd ⟨x, Array.mem_of_getElem? hj, what⟩ fun h ↦ uncalled (hasCalled_noteSeen.1 h)

/-- A cycle that ends and says nothing of its start keeps its record. -/
theorem IsRecorded.ends (h : s.IsRecorded S i) (hc : s.cycles[i]? = some c)
    (silent : IsSilent i s t) (isOver : t.cycles[i]? = some { c with stage := .finished }) :
    t.IsRecorded S i := by
  refine h.of_silent silent (fun _ _ ↦ ⟨_, isOver⟩) fun c' hc' ↦ .inl ⟨c, hc, ?_⟩
  rw [isOver] at hc'
  cases hc'
  exact ⟨rfl, .inr rfl⟩

/-- A cycle that ends after a look has not called its start hook. -/
theorem IsRecorded.leaves (h : s.IsRecorded S i) (hc : s.cycles[i]? = some c) {before : Wait}
    (looks : Awaits S c s before) (m : Mark) :
    (((s.noteSeen i (s.sights before)).tryMark c.place m).endCycle i).IsRecorded S i := by
  refine isRecorded_of_finished (getElem?_leave c.place m (getElem?_noteSeen hc)) rfl
    fun called ↦ (h.awaits hc looks).1 ?_
  have silent : IsSilent i (s.noteSeen i (s.sights before))
      (((s.noteSeen i (s.sights before)).tryMark c.place m).endCycle i) :=
    (isSilent_tryMark c.place m _).trans (isSilent_endCycle i _)
  exact hasCalled_noteSeen.1 (silent.hasCalled.1 called)

/-- **Whatever a cycle does keeps its record.** -/
theorem CycleStep.isRecorded (h : CycleStep S i c s t) (hc : s.cycles[i]? = some c)
    (hr : s.IsRecorded S i) : t.IsRecorded S i := by
  cases h with
  | rests isOver => exact hr
  | turnsAway fresh hm => exact hr.ends hc (isSilent_endCycle i s) (getElem?_endCycle_self hc)
  | begins fresh hm => exact hr.begins hc fresh hm
  | obeys gated told =>
    exact hr.ends hc ((isSilent_tryMark _ _ s).trans (isSilent_endCycle i _))
      (getElem?_leave c.place .stopped hc)
  | breaks gated far =>
    exact hr.ends hc (isSilent_breakOff ⟨nofun, nofun⟩) (getElem?_setCycle_self .finished hc)
  | waits looks going => exact hr.waits hc looks going
  | starts looks ready =>
    obtain ⟨uncalled, tracks⟩ := hr.awaits hc looks
    exact isRecorded_callHook hc uncalled tracks ready
  | meets looks ends => exact hr.leaves hc looks _
  | fails looks ends => exact hr.leaves hc looks _
  | hooks inside step => exact hr.goesOn hc inside step
  | flinches inside =>
    exact hr.ends hc (isSilent_breakOff ⟨nofun, nofun⟩) (getElem?_setCycle_self .finished hc)

/-! ### What a cycle sees is so -/

/-- If the entry says that cycle `i` has seen something ready, it is ready in a state. -/
def IsTrueOf (i : Nat) (s : State) (x : Entry) : Prop :=
  ∀ ps, x.what = .sawReady (.cycle i) ps → ∀ q ∈ ps, s.ensemble.isReady q = true

theorem IsSilent.isTrue (h : IsSilent i s t) (u : State) : Enters (u.IsTrueOf i) s t :=
  h.mono fun _ silent ps saw ↦ absurd saw (silent.2 ps)

theorem isTrue_noteSeen (before : Wait) (s : State) :
    Enters (s.IsTrueOf i) s (s.noteSeen i (s.sights before)) := by
  unfold noteSeen
  split
  · exact .of_eq rfl
  · refine .enter (.of_eq rfl) fun ps saw q hq ↦ ?_
    cases saw
    exact Wait.isReady_of_mem_newlyReady hq

theorem CycleStep.isTrue (h : CycleStep S i c s t) : Enters (s.IsTrueOf i) s t := by
  have leaves : ∀ (u : State) (m : Mark),
      Enters (s.IsTrueOf i) u ((u.tryMark c.place m).endCycle i) := fun u m ↦
    IsSilent.isTrue ((isSilent_tryMark c.place m u).trans (isSilent_endCycle i _)) s
  cases h with
  | rests isOver => exact .of_eq rfl
  | turnsAway fresh hm => exact (isSilent_endCycle i s).isTrue s
  | begins fresh hm => exact ((isSilent_mark hm).isTrue s).trans (.of_eq rfl)
  | obeys gated told => exact leaves s _
  | breaks gated far => exact .enter (.of_eq rfl) nofun
  | waits looks going => exact (isTrue_noteSeen _ s).trans (.of_eq rfl)
  | @starts before looks ready =>
    obtain ⟨b, members, -, e⟩ := callHook_eq S i c.place .start .clean
      (s.noteSeen i (s.sights before))
    rw [e]
    have put : Enters (s.IsTrueOf i) s (({ s.noteSeen i (s.sights before) with members := members
        }).setCycle i (.inside .start (b.script .start) none .clean)) :=
      (isTrue_noteSeen before s).trans (.of_eq rfl)
    exact put.enter nofun
  | meets looks ends => exact (isTrue_noteSeen _ s).trans (leaves _ _)
  | fails looks ends => exact (isTrue_noteSeen _ s).trans (leaves _ _)
  | hooks inside step => exact step.isSilent.isTrue s
  | flinches inside => exact .enter (.of_eq rfl) nofun

end State

section Run

variable {S : Setup} {admits : Deed → Prop} {who : Option Task} {s s' : State} {i : Nat}

/-! ### Others leave the record alone -/

theorem Change.isSilent (h : Change S admits who s s') (other : who ≠ some (.cycle i)) :
    State.IsSilent i s s' := by
  rcases h.enters_or with own | ⟨e, -, rfl⟩
  · exact own.mono fun x hx ↦ Entry.isSilentOf_of_isBy hx.2 other
  · exact .publish (.of_eq rfl) ⟨nofun, nofun⟩

theorem Changes.isSilent (h : Changes S admits who s s') (other : who ≠ some (.cycle i)) :
    State.IsSilent i s s' := by
  induction h with
  | refl => exact .of_eq rfl
  | tail _ last ih => exact ih.trans (last.isSilent other)

/-- Nobody else moves a cycle, except that the host may give it up. -/
theorem Change.cycle_of_other (h : Change S admits who s s') (other : who ≠ some (.cycle i))
    {c' : Cycle} (hc' : s'.cycles[i]? = some c') :
    (∃ c, s.cycles[i]? = some c ∧ c'.place = c.place ∧
      (c'.stage = c.stage ∨ c'.stage = .finished ∧ s' = s.abortCycle i)) ∨
      s.cycles[i]? = none ∧ c'.stage = .fresh := by
  rcases h.cycle_before hc' with ⟨c, hc, place⟩ | ⟨new, fresh, -⟩
  · refine .inl ⟨c, hc, place, ?_⟩
    obtain ⟨d, hd, -, same | ⟨-, ⟨own, -⟩ | ⟨isOver, -, aborted⟩⟩⟩ := h.cycle_after hc
    · rw [hc'] at hd
      cases hd
      exact .inl same
    · exact absurd own other
    · rw [hc'] at hd
      cases hd
      exact .inr ⟨isOver, aborted⟩
  · refine .inr ⟨?_, by rw [fresh]⟩
    rw [new]
    exact Array.getElem?_size

theorem Change.isRecorded (h : Change S admits who s s') (other : who ≠ some (.cycle i))
    (hr : s.IsRecorded S i) : s'.IsRecorded S i := by
  refine hr.of_silent (h.isSilent other) (fun c hc ↦ ?_) fun c' hc' ↦ ?_
  · obtain ⟨c', hc', -⟩ := h.cycle_after hc
    exact ⟨c', hc'⟩
  · rcases h.cycle_of_other other hc' with ⟨c, hc, place, stays⟩ | new
    · exact .inl ⟨c, hc, place, stays.imp_right And.left⟩
    · exact .inr new

/-! ### Steps and runs -/

/-- Nobody steps for a cycle that there is not. -/
theorem State.step_cycle_of_none (none : s.cycles[i]? = none) : s.step S (.cycle i) = s := by
  show s.stepCycle S i = s
  unfold State.stepCycle
  rw [none]

/-- **What a cycle says that it has seen ready was ready.** -/
theorem Step.sees (h : Step S admits s s') (ho : s.IsOrderly) {k : Nat} {x : Entry} {ps : List Nat}
    (new : s.chronicle.size ≤ k) (hx : s'.chronicle[k]? = some x)
    (saw : x.what = .sawReady (.cycle i) ps) : ∀ q ∈ ps, s.ensemble.isReady q = true := by
  have entered : State.Enters (s.IsTrueOf i) s s' := by
    rcases h.turn_or_changes ho (· = .cycle i) with ⟨_, rfl, rfl⟩ | ⟨who, other, hc⟩
    · cases hc : s.cycles[i]? with
      | none => exact .of_eq (by rw [State.step_cycle_of_none hc])
      | some c => exact (State.cycleStep_step hc).isTrue
    · exact (Changes.isSilent hc (other _ rfl)).isTrue s
  rcases entered.getElem?_cases hx with old | ⟨-, isTrue⟩
  · obtain ⟨hlt, -⟩ := Array.getElem?_eq_some_iff.1 old
    exact absurd hlt (Nat.not_lt_of_le new)
  · exact isTrue ps saw

theorem Step.isRecorded (h : Step S admits s s') (ho : s.IsOrderly) (hr : s.IsRecorded S i) :
    s'.IsRecorded S i := by
  rcases h.turn_or_changes ho (· = .cycle i) with ⟨_, rfl, rfl⟩ | ⟨who, other, hc⟩
  · cases hc : s.cycles[i]? with
    | none =>
      rw [State.step_cycle_of_none hc]
      exact hr
    | some c => exact (State.cycleStep_step hc).isRecorded hc hr
  · exact (hc.keeps (P := fun t ↦ t.IsRecorded S i)
      (fun _ hr c ↦ c.isRecorded (other _ rfl) hr) ho hr).2

theorem State.isRecorded_initial (S : Setup) (bus : Bus) (recorder : Option Recorder) (now : Nat)
    (i : Nat) : (State.initial S bus recorder now).IsRecorded S i where
  quiet _ x hx := absurd hx (Array.not_mem_empty x)
  tracks c _ hc := absurd (Array.mem_of_getElem? hc) (Array.not_mem_empty c)
  hooks c _ _ _ _ hc := absurd (Array.mem_of_getElem? hc) (Array.not_mem_empty c)
  covered c hc := absurd (Array.mem_of_getElem? hc) (Array.not_mem_empty c)

/-- At every moment of every run, the record of every cycle agrees with where it stands. -/
theorem Reaches.isRecorded {bus : Bus} {recorder : Option Recorder} {now : Nat}
    (run : Reaches S admits (State.initial S bus recorder now) s) (i : Nat) :
    s.IsOrderly ∧ s.IsRecorded S i :=
  run.keeps (P := fun t ↦ t.IsOrderly ∧ t.IsRecorded S i)
    (fun ht step ↦ ⟨step.isOrderly ht.1, step.isRecorded ht.1 ht.2⟩)
    ⟨State.isOrderly_initial S bus recorder now, State.isRecorded_initial S bus recorder now i⟩

end Run

end Supervision
