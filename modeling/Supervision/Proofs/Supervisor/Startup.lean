import Mathlib.Data.List.Nodup
import Supervision.Proofs.Supervisor.Deadline
import Supervision.Proofs.Supervisor.FirstRun
import Supervision.Proofs.Supervisor.Schedule

/-!
# How a cycle starts up

A cycle calls its start hook only after its resource has made its move to starting and, at some
moment between the two, each of the resources it depends on was ready and the cycle saw that
(`State.SeesReady`). Readiness may come and go in between.

Where everybody leaves the status alone, a cycle that has begun and ends without having called its
start hook leaves its resource failed or stopped (`State.GivesUp`): failed when the startup timeout
has passed, with a message that names what was not seen ready, and stopped when it was told to end
or the shutdown had begun. Only a cycle whose resource may not start ends otherwise, at once and
without touching the resource; there is none in the first run.

* `startup_is_gated` — both, for every cycle of every resource of a table.
* `depot_is_gated` — a resource that starts after another, and one that waits in vain.
* `relapsing_is_turned_away` — in a second run, a cycle may leave its resource crashed.
-/

namespace Supervision

/-! ### The table -/

namespace Setup

variable {S : Setup} {rs : List Resource} {r : Resource} {p : Nat}

/-- No two resources of an accepted table share a name. -/
theorem names_nodup_of_posts? {posts : Array Post} (table : posts? rs = .ok posts) :
    (rs.map (·.name)).Nodup := by
  unfold posts? startOrder at table
  dsimp only at table
  rw [List.map_map] at table
  cases repeated : StartOrder.firstRepeated? [] (rs.map (·.name)) with
  | none => exact (StartOrder.firstRepeated?_eq_none_iff.1 repeated).1
  | some n =>
    have found : StartOrder.firstRepeated? []
        (rs.map ((·.name) ∘ fun r ↦ (⟨r.name, r.dependsOn⟩ : Declaration))) = some n := repeated
    rw [found] at table
    cases table

/-- A table that is accepted is accepted with its posts. -/
theorem posts?_eq_ok_of_isOk (accepted : (posts? rs).isOk = true) :
    posts? rs = .ok ((posts? rs).toOption.getD #[]) := by
  cases h : posts? rs with
  | ok posts => rfl
  | error e =>
    rw [h] at accepted
    cases accepted

/-- The resources of an accepted table are taken in its start order, and what they depend on is
looked up among them. -/
theorem exists_ordered_of_posts? (table : posts? rs = .ok S.posts) :
    ∃ order, startOrder (rs.map fun r ↦ ⟨r.name, r.dependsOn⟩) = .ok order ∧
      S.names = (order.filterMap (rs[·]?)).map (·.name) ∧
      ∀ p : Nat, S.posts[p]? = (order.filterMap (rs[·]?))[p]?.map fun r ↦
        ⟨r.name, r.dependsOn.filterMap S.place?, r.behaviour⟩ := by
  unfold posts? at table
  cases ordered : startOrder (rs.map fun r ↦ ⟨r.name, r.dependsOn⟩) with
  | error e =>
    rw [ordered] at table
    cases table
  | ok order =>
    rw [ordered] at table
    have posts : S.posts = ((order.filterMap (rs[·]?)).map fun r ↦
        { name := r.name
          needs := r.dependsOn.filterMap (((order.filterMap (rs[·]?)).map (·.name)).idxOf? ·)
          behaviour := r.behaviour : Post }).toArray := (Except.ok.inj table).symm
    have names : S.names = (order.filterMap (rs[·]?)).map (·.name) := by
      unfold Setup.names
      rw [posts, List.toList_toArray, List.map_map]
      rfl
    refine ⟨order, rfl, names, fun p ↦ ?_⟩
    rw [posts, List.getElem?_toArray, List.getElem?_map, ← names]
    rfl

/-- In every place there is a resource of the table. -/
theorem exists_resource_of_posts? (table : posts? rs = .ok S.posts) {post : Post}
    (h : S.posts[p]? = some post) :
    ∃ r ∈ rs, post = ⟨r.name, r.dependsOn.filterMap S.place?, r.behaviour⟩ := by
  obtain ⟨order, -, -, posts⟩ := exists_ordered_of_posts? table
  rw [posts p] at h
  obtain ⟨r, hr, rfl⟩ := Option.map_eq_some_iff.1 h
  obtain ⟨k, -, hk⟩ := List.mem_filterMap.1 (List.mem_of_getElem? hr)
  exact ⟨r, List.mem_of_getElem? hk, rfl⟩

/-- What a resource of an accepted table depends on is found in its place, in the order in which it
was declared. -/
theorem needs_of_posts? (table : posts? rs = .ok S.posts) (hr : r ∈ rs)
    (hp : S.place? r.name = some p) : S.needs p = r.dependsOn.filterMap S.place? := by
  obtain ⟨post, hpost, name⟩ := exists_post_of_place? hp
  obtain ⟨r', hr', rfl⟩ := exists_resource_of_posts? table hpost
  -- No other resource of the table has its name.
  have same : r' = r := List.inj_on_of_nodup_map (names_nodup_of_posts? table) hr' hr name
  subst same
  unfold needs
  rw [hpost]
  rfl

theorem isMeek_of_posts? (table : posts? rs = .ok S.posts)
    (meek : ∀ r ∈ rs, ∀ (n : Nat) (hook : Hook), ∀ a ∈ (r.behaviour n).script hook, a.IsMeek) :
    S.IsMeek := by
  intro p post h
  obtain ⟨r, hr, rfl⟩ := exists_resource_of_posts? table h
  exact meek r hr

/-- Names go to places and come back. -/
theorem filterMap_name_place? (P : Nat → Bool) (ds : List String) :
    ((ds.filterMap S.place?).filter P).filterMap (fun p ↦ (S.posts[p]?).map (·.name))
      = ds.filter fun d ↦ (S.place? d).any P := by
  induction ds with
  | nil => rfl
  | cons d ds ih =>
    cases hd : S.place? d with
    | none =>
      rw [List.filterMap_cons_none hd, List.filter_cons_of_neg (by rw [hd]; nofun), ih]
    | some p =>
      obtain ⟨post, hpost, rfl⟩ := exists_post_of_place? hd
      rw [List.filterMap_cons_some hd]
      cases hP : P p with
      | false =>
        rw [List.filter_cons_of_neg (by rw [hP]; nofun),
          List.filter_cons_of_neg (by rw [hd, Option.any_some, hP]; nofun), ih]
      | true =>
        rw [List.filter_cons_of_pos hP, List.filter_cons_of_pos (by rw [hd, Option.any_some, hP]),
          List.filterMap_cons_some (b := post.name) (by rw [hpost]; rfl), ih]

end Setup

namespace State

/-- Who is not ready is named by the names of the places. -/
theorem names_pending {S : Setup} {s : State} (hf : s.Fits S) (places : List Nat) :
    (s.ensemble.pending places).map (·.name)
      = places.filterMap fun p ↦ (S.posts[p]?).map (·.name) := by
  unfold Ensemble.pending
  rw [List.map_filterMap]
  refine List.filterMap_congr fun p _ ↦ ?_
  rw [← hf.names p, Option.map_map]
  rfl

/-! ### What is shown of a cycle -/

/-- On the way from one state to another there is a moment at which the resource in place `q` is
ready and cycle `i` sees that; it enters so before entry `j` of the chronicle. -/
def SeesReady (S : Setup) (admits : Deed → Prop) (i q j : Nat) (s s' : State) : Prop :=
  ∃ (u u' : State) (k : Nat) (x : Entry) (ps : List Nat),
    Reaches S admits s u ∧ Step S admits u u' ∧ Reaches S admits u' s' ∧
    u.ensemble.isReady q = true ∧ u.chronicle.size ≤ k ∧ k < j ∧ u'.chronicle[k]? = some x ∧
    x.what = .sawReady (.cycle i) ps ∧ q ∈ ps

/-- From `s₀` on, cycle `i` of resource `r` in place `p` calls its start hook only after the
resource has made its move to starting and the cycle has then seen ready all that `r` depends on. -/
def IsGated (S : Setup) (admits : Deed → Prop) (s₀ : State) (r : Resource) (p i : Nat) : Prop :=
  ∀ (s : State) (c : Cycle) (j : Nat) (x : Entry), Reaches S admits s₀ s →
    s.cycles[i]? = some c → c.place = p → s.chronicle[j]? = some x → x.what = .called i .start →
    ∃ b, Reaches S admits s₀ b ∧ b.Begins i p ∧ Reaches S admits (b.step S (.cycle i)) s ∧
      ∀ d ∈ r.dependsOn, ∀ q, S.place? d = some q →
        SeesReady S admits i q j (b.step S (.cycle i)) s

/-- Cycle `i` of resource `r` in place `p`, which began at a moment, has ended between two states
and leaves its resource as it may. -/
inductive GivesUp (S : Setup) (r : Resource) (i p began : Nat) (s t : State) : Prop where
  /-- The startup timeout has passed; what was not seen ready is named, in order. -/
  | failed {l : Lifecycle} {late : List Pending} (hl : t.lifecycle? p = some l)
      (status : l.status = .failed)
      (failure : l.lastFailure = some
        (.plain "dependencies_not_ready" ("dependencies not ready: " ++ Pending.list late)))
      (names : late.map (·.name)
        = r.dependsOn.filter fun d ↦ (S.place? d).any fun q ↦ q ∉ t.seen i)
      (due : s.now = began + S.settings.startupTimeout.millisUp)
  /-- It was told to end, or the shutdown had begun. -/
  | stopped {l : Lifecycle} (hl : t.lifecycle? p = some l) (status : l.status = .stopped)
      (told : s.isRequested = true ∨ ∃ c, s.cycles[i]? = some c ∧ c.cancelled = true)

/-- From `s₀` on, cycle `i` of resource `r` in place `p` ends as it may. -/
structure EndsWell (S : Setup) (admits : Deed → Prop) (s₀ : State) (r : Resource) (p i : Nat) :
    Prop where
  /-- Once begun, it does not wait longer than the startup timeout. -/
  waits : ∀ (b s : State) (c : Cycle) (w : Option Wait), Reaches S admits s₀ b → b.Begins i p →
    Reaches S admits (b.step S (.cycle i)) s → s.cycles[i]? = some c → c.stage = .gated w →
    s.now ≤ b.now + S.settings.startupTimeout.millisUp
  /-- If it ends without having called its start hook, and not because the host gives it up, it
  leaves the resource failed or stopped. -/
  ends : ∀ b s t : State, Reaches S admits s₀ b → b.Begins i p →
    Reaches S admits (b.step S (.cycle i)) s → Step S admits s t → s.IsGoing p i →
    t.cycleIsOver i = true → ¬ t.HasCalled i → ¬ t.IsAborted i → GivesUp S r i p b.now s t
  /-- In the first run, whenever it has not begun it may begin. -/
  begins : ∀ (s₁ s : State) (c : Cycle), Reaches S admits s₀ s₁ → s₁.IsFirstRun →
    Reaches S (fun d ↦ admits d ∧ d ≠ .call) s₁ s → s.cycles[i]? = some c → c.place = p →
    c.stage = .fresh → s.Begins i p

end State

section Run

variable {S : Setup} {admits : Deed → Prop} {s s' t : State} {i p q j : Nat} {bus : Bus}
  {recorder : Option Recorder} {now : Nat}

/-! ### From the move to starting to the call -/

/-- Whatever was entered on the way was entered in some step of it. -/
theorem Reaches.entered (h : Reaches S admits s s') {k : Nat} {x : Entry}
    (hx : s'.chronicle[k]? = some x) (new : s.chronicle.size ≤ k) :
    ∃ u u', Reaches S admits s u ∧ Step S admits u u' ∧ Reaches S admits u' s' ∧
      u.chronicle.size ≤ k ∧ u'.chronicle[k]? = some x := by
  induction h with
  | refl =>
    obtain ⟨old, -⟩ := Array.getElem?_eq_some_iff.1 hx
    exact absurd new (Nat.not_le_of_lt old)
  | @step s₂ s₃ before last ih =>
    by_cases old : k < s₂.chronicle.size
    · have there : s₂.chronicle[k]? = some x := by
        obtain ⟨y, hy⟩ : ∃ y, s₂.chronicle[k]? = some y := ⟨_, Array.getElem?_eq_getElem old⟩
        rw [← hx, last.grows.getElem? hy, hy]
      obtain ⟨u, u', toU, step, later, size, entered⟩ := ih there
      exact ⟨u, u', toU, step, later.step last, size, entered⟩
    · exact ⟨_, _, before, last, .refl _, Nat.le_of_not_lt old, hx⟩

/-- With its first step it begins to wait. -/
theorem State.Begins.step (h : s.Begins i p) :
    s.isEnabled (.cycle i) = true ∧ ∃ c : Cycle,
      (s.step S (.cycle i)).cycles[i]? = some { c with stage := .gated none } ∧ c.place = p := by
  obtain ⟨c, l, hc, rfl, fresh, hl, legal⟩ := h
  refine ⟨?_, c, ?_, rfl⟩
  · show s.cycleIsEnabled i = true
    unfold State.cycleIsEnabled
    rw [hc]
    dsimp only
    rw [fresh]
  · rcases State.step_fresh (S := S) hc fresh with ⟨t, hm, e⟩ | ⟨e, hm, -⟩
    · rw [e]
      refine State.getElem?_setCycle_self _ ?_
      rw [State.cycles_of_mark hm, hc]
    · cases legal.symm.trans (State.illegal_of_mark hm rfl hl)

namespace State

/-- Cycle `i` of the resource in place `p` began on the way from one state to another. -/
def BeganOnWay (S : Setup) (admits : Deed → Prop) (i p : Nat) (s s' : State) : Prop :=
  ∃ b, Reaches S admits s b ∧ b.Begins i p ∧ Reaches S admits (b.step S (.cycle i)) s'

/-- Cycle `i`, which stands as `c`, waits or has called its start hook. -/
def HasSetOut (i : Nat) (c : Cycle) (s : State) : Prop :=
  s.HasCalled i ∨ ∃ wait?, c.stage = .gated wait?

theorem IsRecorded.not_hasCalled_of_none (h : s.IsRecorded S i) (none : s.cycles[i]? = none) :
    ¬ s.HasCalled i := by
  rintro ⟨x, hx, called⟩
  exact (h.quiet (by rw [none]; nofun) x hx).1 called

/-- A cycle sets out with the step in which it begins. -/
theorem HasSetOut.begins_or {c c' : Cycle} (h : (s.step S (.cycle i)).HasSetOut i c')
    (hc : s.cycles[i]? = some c) (hc' : (s.step S (.cycle i)).cycles[i]? = some c')
    (hf : s.Fits S) (record : s.IsRecorded S i) : s.Begins i c.place ∨ s.HasSetOut i c := by
  cases stage : c.stage with
  | fresh =>
    rcases step_fresh (S := S) hc stage with ⟨t, hm, -⟩ | ⟨-, -, e⟩
    · obtain ⟨l, hl⟩ := hf.exists_lifecycle (hf.cycles i c hc)
      exact .inl ⟨c, l, hc, rfl, stage, hl, allows_of_mark rfl hm hl⟩
    · rw [e, getElem?_endCycle_self hc] at hc'
      cases hc'
      rcases h with called | ⟨_, gated⟩
      · rw [e] at called
        exact .inr (.inl ((isSilent_endCycle i s).hasCalled.1 called))
      · cases gated
  | gated wait? => exact .inr (.inr ⟨wait?, stage⟩)
  | inside hook acts wake exit => exact .inr (.inl (record.hooks c hook acts wake exit hc stage))
  | finished =>
    rw [step_finished hc stage] at hc' h
    rw [hc] at hc'
    cases hc'
    exact .inr h

end State

/-- Others do not make a cycle set out. -/
theorem Changes.hasSetOut_before {who : Option Task} (chain : Changes S admits who s s')
    (other : who ≠ some (.cycle i)) (record : s.IsRecorded S i) {c' : Cycle}
    (hc' : s'.cycles[i]? = some c') (h : s'.HasSetOut i c') :
    ∃ c, s.cycles[i]? = some c ∧ c'.place = c.place ∧ s.HasSetOut i c := by
  have before : s'.HasCalled i → s.HasCalled i := (chain.isSilent other).hasCalled.1
  rcases chain.cycle_of_other other hc' with ⟨c, hc, place, same⟩ | ⟨none, fresh⟩ | ⟨isOver, -⟩
  · exact ⟨c, hc, place, h.imp before fun ⟨w, gated⟩ ↦ ⟨w, same ▸ gated⟩⟩
  · rcases h with called | ⟨w, gated⟩
    · exact absurd (before called) (record.not_hasCalled_of_none none)
    · rw [fresh] at gated
      cases gated
  · rcases h with called | ⟨w, gated⟩
    · cases hc : s.cycles[i]? with
      | none => exact absurd (before called) (record.not_hasCalled_of_none hc)
      | some c =>
        obtain ⟨d, hd, place⟩ := chain.place hc
        rw [hc'] at hd
        cases hd
        exact ⟨c, rfl, place, .inl (before called)⟩
    · rw [isOver] at gated
      cases gated

/-- Whoever waits or has called the start hook has begun. -/
theorem Step.beganOnWay (last : Step S admits s s')
    (run : Reaches S admits (State.initial S bus recorder now) s)
    (before : ∀ c, s.cycles[i]? = some c → s.HasSetOut i c →
      State.BeganOnWay S admits i c.place (State.initial S bus recorder now) s)
    {c' : Cycle} (hc' : s'.cycles[i]? = some c') (h : s'.HasSetOut i c') :
    State.BeganOnWay S admits i c'.place (State.initial S bus recorder now) s' := by
  obtain ⟨ho, record⟩ := run.isRecorded i
  have later : ∀ c, s.cycles[i]? = some c → c'.place = c.place → s.HasSetOut i c →
      State.BeganOnWay S admits i c'.place (State.initial S bus recorder now) s' := by
    intro c hc place out
    obtain ⟨b, reached, begins, toS⟩ := before c hc out
    exact ⟨b, reached, place ▸ begins, toS.step last⟩
  rcases last.turn_or_changes ho (· = .cycle i) with ⟨_, rfl, rfl⟩ | ⟨who, other, chain⟩
  · cases hc : s.cycles[i]? with
    | none =>
      rw [State.step_cycle_of_none hc, hc] at hc'
      cases hc'
    | some c =>
      have chain : Changes S admits (some (.cycle i)) s (s.step S (.cycle i)) :=
        State.changes_step (.cycle i) s ho
      obtain ⟨d, hd, place⟩ := chain.place hc
      rw [hc'] at hd
      cases hd
      rcases h.begins_or hc hc' run.fits.2 record with begins | out
      · exact ⟨s, run, place ▸ begins, .refl _⟩
      · exact later c hc place out
  · obtain ⟨c, hc, place, out⟩ := chain.hasSetOut_before (other _ rfl) record hc' h
    exact later c hc place out

theorem Reaches.beganOnWay (run : Reaches S admits (State.initial S bus recorder now) s)
    {c : Cycle} (hc : s.cycles[i]? = some c) (h : s.HasSetOut i c) :
    State.BeganOnWay S admits i c.place (State.initial S bus recorder now) s := by
  refine (run.keeps (P := fun t ↦ Reaches S admits (State.initial S bus recorder now) t ∧
    ∀ c, t.cycles[i]? = some c → t.HasSetOut i c →
      State.BeganOnWay S admits i c.place (State.initial S bus recorder now) t)
    (fun ht last ↦ ⟨ht.1.step last, fun c ↦ last.beganOnWay ht.1 ht.2⟩)
    ⟨.refl _, fun c hc ↦ ?_⟩).2 c hc h
  exact absurd (Array.mem_of_getElem? hc) (Array.not_mem_empty c)

/-- **The start hook is called only after everything was seen ready**, at moments after the move of
the resource to starting. -/
theorem State.isGated_initial {rs : List Resource} {r : Resource}
    (table : Setup.posts? rs = .ok S.posts) (hr : r ∈ rs) (hp : S.place? r.name = some p) :
    State.IsGated S admits (State.initial S bus recorder now) r p i := by
  intro s c j x run hc place hx called
  obtain ⟨b, toB, begins, toS⟩ :=
    run.beganOnWay hc (.inl ⟨x, Array.mem_of_getElem? hx, called⟩)
  rw [place] at begins
  obtain ⟨enabled, c₁, hc₁, -⟩ := begins.step (S := S)
  have toStep : Reaches S admits (State.initial S bus recorder now) (b.step S (.cycle i)) :=
    toB.step (.turn (.cycle i) enabled)
  refine ⟨b, toB, begins, toS, fun d hd q hq ↦ ?_⟩
  have needed : q ∈ S.needs c.place := by
    rw [place, Setup.needs_of_posts? table hr hp]
    exact List.mem_filterMap.2 ⟨d, hd, hq⟩
  obtain ⟨k, y, ps, hkj, hy, saw, mem⟩ :=
    (run.isRecorded i).2.covered c hc j x hx called q needed
  -- Until its first look it has seen nothing.
  have new : (b.step S (.cycle i)).chronicle.size ≤ k := by
    refine Nat.le_of_not_lt fun old ↦ ?_
    obtain ⟨z, hz⟩ : ∃ z, (b.step S (.cycle i)).chronicle[k]? = some z :=
      ⟨_, Array.getElem?_eq_getElem old⟩
    have same : z = y := by
      rw [toS.grows.getElem? hz] at hy
      exact Option.some.inj hy
    have silent := (toStep.isRecorded i).2.quiet (fun c₂ hc₂ ↦ by
      rw [hc₁] at hc₂
      cases hc₂
      exact .inr rfl) z (Array.mem_of_getElem? hz)
    exact silent.2 ps (same ▸ saw)
  obtain ⟨u, u', toU, step, later, size, entered⟩ := toS.entered hy new
  have orderly : u.IsOrderly := (toStep.trans toU).fits.1
  exact ⟨u, u', k, y, ps, toU, step, later, step.sees orderly size entered saw q mem, size, hkj,
    entered, saw, mem⟩

/-! ### From the move to starting to another end -/

theorem State.Begins.isOnTime (h : s.Begins i p) (ho : s.IsOrderly) :
    (s.step S (.cycle i)).IsOnTime S i p s.now := by
  obtain ⟨-, c, hc, rfl⟩ := h.step (S := S)
  have chain : Changes S (fun _ ↦ False) (some (.cycle i)) s (s.step S (.cycle i)) :=
    State.changes_step (.cycle i) s ho
  exact ⟨_, hc, rfl, chain.now⟩

/-- From its first step on, a cycle that has begun stands where it may. -/
theorem Reaches.isOnTime {b : State} (run : Reaches S admits (b.step S (.cycle i)) s)
    (begins : b.Begins i p) (ho : b.IsOrderly) : s.IsOnTime S i p b.now := by
  have chain : Changes S admits (some (.cycle i)) b (b.step S (.cycle i)) :=
    State.changes_step (.cycle i) b ho
  have orderly : (b.step S (.cycle i)).IsOrderly :=
    (chain.keeps (P := fun _ ↦ True) (fun _ _ _ ↦ trivial) ho trivial).1
  exact (run.keeps (P := fun t ↦ t.IsOrderly ∧ t.IsOnTime S i p b.now)
    (fun ht step ↦ ⟨step.isOrderly ht.1, step.isOnTime ht.1 ht.2⟩)
    ⟨orderly, begins.isOnTime ho⟩).2

/-- **Who waits in vain fails, and names what was not seen ready.** -/
theorem State.givesUp_of_timedOut {rs : List Resource} {r : Resource} {c : Cycle} {l : Lifecycle}
    {before : Wait} {late : List Nat} {began : Nat} (table : Setup.posts? rs = .ok S.posts)
    (hr : r ∈ rs) (hp : S.place? r.name = some c.place) (hf : s.Fits S)
    (record : s.IsRecorded S i) (hc : s.cycles[i]? = some c) (hl : s.lifecycle? c.place = some l)
    (starting : l.status = .starting)
    (on : c.stage.IsOnTime began S.settings.startupTimeout s.now) (looks : Awaits S c s before)
    (ends : (s.ensemble.look s.now before).result? = some (.timedOut late)) :
    GivesUp S r i c.place began s (((s.noteSeen i (s.sights before)).tryMark c.place
      (.failed (Pending.failure (s.ensemble.pending late)))).endCycle i) := by
  obtain ⟨l', published, hl', moves⟩ := movesTo_tryMark
    (s := s.noteSeen i (s.sights before)) (p := c.place)
    (m := .failed (Pending.failure (s.ensemble.pending late))) rfl (by rw [starting]; rfl)
    ((lifecycle?_noteSeen _).trans hl)
  obtain ⟨past, named⟩ := (record.awaits hc looks).2.of_timedOut ends
  obtain ⟨deadline, early⟩ := looks.deadline on
  have silent : IsSilent i (s.noteSeen i (s.sights before))
      (((s.noteSeen i (s.sights before)).tryMark c.place
        (.failed (Pending.failure (s.ensemble.pending late)))).endCycle i) :=
    (isSilent_tryMark _ _ _).trans (isSilent_endCycle i _)
  have names : (s.ensemble.pending late).map (·.name) = r.dependsOn.filter fun d ↦
      (S.place? d).any fun q ↦ q ∉ s.seen i ++ s.sights before := by
    rw [names_pending hf, named, Setup.needs_of_posts? table hr hp, Setup.filterMap_name_place?]
    rfl
  have failure : l'.lastFailure = some (.plain "dependencies_not_ready"
      ("dependencies not ready: " ++ Pending.list (s.ensemble.pending late))) := moves.lastFailure
  have due : s.now = began + S.settings.startupTimeout.millisUp :=
    (Nat.le_antisymm early past).trans deadline
  refine .failed hl' moves.status failure ?_ due
  rw [names, silent.seen, seen_sights]

/-- Who is told to end, or meets the shutdown, stops. -/
theorem State.status_leave_stopped {c : Cycle} {l : Lifecycle} (hl : s.lifecycle? c.place = some l)
    (starting : l.status = .starting) :
    ∃ l', ((s.tryMark c.place .stopped).endCycle i).lifecycle? c.place = some l' ∧
      l'.status = .stopped := by
  obtain ⟨l', published, hl', moves⟩ :=
    movesTo_tryMark (m := .stopped) rfl (by rw [starting]; rfl) hl
  exact ⟨l', hl', moves.status⟩

/-- **What a cycle leaves behind that ends in its own step without having called its start
hook.** -/
theorem State.CycleStep.givesUp {rs : List Resource} {r : Resource} {began : Nat} {c : Cycle}
    {l : Lifecycle} (step : CycleStep S i c s t) (table : Setup.posts? rs = .ok S.posts)
    (hr : r ∈ rs) (hp : S.place? r.name = some c.place)
    (near : S.settings.startupTimeout.isBeyondClocks = false) (hf : s.Fits S)
    (record : s.IsRecorded S i) (hc : s.cycles[i]? = some c) (hl : s.lifecycle? c.place = some l)
    (suits : c.stage.Suits l.status)
    (on : c.stage.IsOnTime began S.settings.startupTimeout s.now) (going : c.stage ≠ .finished)
    (isOver : t.cycleIsOver i = true) (uncalled : ¬ t.HasCalled i) :
    GivesUp S r i c.place began s t := by
  have early : c.stage ≠ .fresh := by
    intro fresh
    rw [fresh] at on
    exact on
  have starting : ∀ {before : Wait}, Awaits S c s before → l.status = .starting := by
    intro before looks
    obtain ⟨_, gated⟩ := looks.isGated
    exact suits.starting gated
  cases step with
  | rests gone => exact absurd gone going
  | turnsAway fresh hm => exact absurd fresh early
  | begins fresh hm => exact absurd fresh early
  | obeys gated told =>
    obtain ⟨l', hl', status⟩ := status_leave_stopped hl (suits.starting gated)
    exact .stopped hl' status (.inr ⟨c, hc, told⟩)
  | breaks gated far =>
    rw [near] at far
    cases far
  | @waits before looks open' =>
    have noted : (s.noteSeen i (s.sights before)).cycles[i]? = some c := getElem?_noteSeen hc
    have still := getElem?_setCycle_self (.gated (some (s.ensemble.look s.now before))) noted
    have gone := (cycleIsOver_iff_of_some still).1 isOver
    cases gone
  | @starts before looks ready =>
    obtain ⟨b, members, -, e⟩ := callHook_eq S i c.place .start .clean
      (s.noteSeen i (s.sights before))
    refine absurd ?_ uncalled
    rw [e]
    exact ⟨_, Array.mem_push_self, rfl⟩
  | @meets before looks met =>
    obtain ⟨l', hl', status⟩ :=
      status_leave_stopped ((lifecycle?_noteSeen _).trans hl) (starting looks)
    exact .stopped hl' status (.inl ((record.awaits hc looks).2.of_shutdown met))
  | fails looks ends =>
    exact givesUp_of_timedOut table hr hp hf record hc hl (starting looks) on looks ends
  | hooks inside step =>
    have silent : IsSilent i s t := step.isSilent
    exact absurd (silent.hasCalled.2 (record.hooks c _ _ _ _ hc inside)) uncalled
  | @flinches hook payload rest wake exit inside =>
    have silent : IsSilent i s
        ((s.setCycle i .finished).enter (.flinched i hook payload.message)) :=
      isSilent_breakOff ⟨nofun, nofun⟩
    exact absurd (silent.hasCalled.2 (record.hooks c _ _ _ _ hc inside)) uncalled

/-- Others end a cycle only by giving it up. -/
theorem Changes.isAborted_of_over {who : Option Task} (chain : Changes S admits who s t)
    (other : who ≠ some (.cycle i)) (going : s.IsGoing p i) (isOver : t.cycleIsOver i = true) :
    t.IsAborted i := by
  obtain ⟨c, hc, -, going⟩ := going
  obtain ⟨c', hc', -⟩ := chain.place hc
  have gone := (State.cycleIsOver_iff_of_some hc').1 isOver
  rcases chain.cycle_of_other other hc' with ⟨d, hd, -, same⟩ | ⟨none, -⟩ | ⟨-, aborted⟩
  · rw [hc] at hd
    cases hd
    exact absurd (same.symm.trans gone) going
  · rw [hc] at none
    cases none
  · exact aborted

/-- **What a cycle leaves behind that ends without having called its start hook.** -/
theorem Step.givesUp {rs : List Resource} {r : Resource} {began : Nat} (h : Step S admits s t)
    (table : Setup.posts? rs = .ok S.posts) (hr : r ∈ rs) (hp : S.place? r.name = some p)
    (near : S.settings.startupTimeout.isBeyondClocks = false) (ho : s.IsOrderly) (hf : s.Fits S)
    (steady : s.IsSteady) (record : s.IsRecorded S i) (on : s.IsOnTime S i p began)
    (going : s.IsGoing p i) (isOver : t.cycleIsOver i = true) (uncalled : ¬ t.HasCalled i)
    (kept : ¬ t.IsAborted i) : State.GivesUp S r i p began s t := by
  rcases h.turn_or_changes ho (· = .cycle i) with ⟨_, rfl, turn⟩ | ⟨who, other, chain⟩
  · obtain ⟨c, hc, rfl, going⟩ := going
    obtain ⟨d, hd, -, on⟩ := on
    rw [hc] at hd
    cases hd
    obtain ⟨l, hl⟩ := hf.exists_lifecycle (hf.cycles i c hc)
    have step : State.CycleStep S i c s t := turn ▸ State.cycleStep_step hc
    exact step.givesUp table hr hp near hf record hc hl (steady.suits i c l hc hl) on going isOver
      uncalled
  · exact absurd (chain.isAborted_of_over (other _ rfl) going isOver) kept

/-- **Startup is gated.** Take a table of resources that is accepted, any run of any supervisor of
it, and a cycle of one of its resources. The cycle calls its start hook only after the resource has
made its move to starting and, between the two, whatever the resource depends on was ready at some
moment and the cycle saw that. Where everybody leaves the status alone, a cycle that has begun
does not wait longer than the timeout; if it ends without having called its start hook, and not
because the host gives it up, it leaves the resource failed, naming what was not seen ready, or
stopped, because it was told to end or the shutdown had begun; and in the first run every cycle
begins. -/
theorem startup_is_gated {rs : List Resource} {r : Resource}
    (table : Setup.posts? rs = .ok S.posts) (hr : r ∈ rs) (hp : S.place? r.name = some p)
    (i : Nat) :
    State.IsGated S admits (State.initial S bus recorder now) r p i ∧
      (S.IsMeek → Deed.IsMeek admits → S.settings.startupTimeout.isBeyondClocks = false →
        State.EndsWell S admits (State.initial S bus recorder now) r p i) := by
  refine ⟨State.isGated_initial table hr hp, fun hooks deeds near ↦ ⟨?_, ?_, ?_⟩⟩
  · intro b s c w toB begins toS hc gated
    obtain ⟨d, hd, -, on⟩ := toS.isOnTime begins toB.fits.1
    rw [hc] at hd
    cases hd
    rw [gated] at on
    exact on.le
  · intro b s t toB begins toS last going isOver uncalled kept
    obtain ⟨enabled, -⟩ := begins.step (S := S)
    have run : Reaches S admits (State.initial S bus recorder now) s :=
      (toB.step (.turn (.cycle i) enabled)).trans toS
    obtain ⟨ho, hf⟩ := run.fits
    exact last.givesUp table hr hp near ho hf (run.isSteady hooks deeds) (run.isRecorded i).2
      (toS.isOnTime begins toB.fits.1) going isOver uncalled kept
  · intro s₁ s c toS₁ first toS hc place fresh
    exact place ▸ toS₁.begins_of_fresh first toS hooks deeds hc fresh

end Run

theorem Deed.isMeek_call : Deed.IsMeek (· = .call) := fun _ _ mark ↦ by cases mark

/-- That a cycle has neither called its start hook nor been given up is read off the chronicle. -/
theorem State.silent_of_all {s : State} {i : Nat} (h : s.chronicle.toList.all
    (fun x ↦ x.what ≠ .called i .start ∧ x.what ≠ .aborted i) = true) :
    ¬ s.HasCalled i ∧ ¬ s.IsAborted i := by
  have never : ∀ x ∈ s.chronicle, x.what ≠ .called i .start ∧ x.what ≠ .aborted i :=
    fun x hx ↦ of_decide_eq_true (List.all_eq_true.1 h x (Array.mem_toList_iff.2 hx))
  exact ⟨fun ⟨x, hx, called⟩ ↦ (never x hx).1 called, fun ⟨x, hx, aborted⟩ ↦ (never x hx).2 aborted⟩

/-! ### A depot -/

/-- Opens as soon as the store is ready. -/
def Resource.gate : Resource where
  name := "gate"
  dependsOn := ["store"]
  behaviour _ := { serve := [.untilCancelled] }

/-- Needs the pump and the store. -/
def Resource.yard : Resource where
  name := "yard"
  dependsOn := ["pump", "store"]
  behaviour _ := { serve := [.untilCancelled] }

/-- The store is ready at once, and the pump is not ready as long as it starts. -/
def Resource.depot : List Resource :=
  [.gate, .yard,
    { name := "store"
      behaviour := fun _ ↦ { start := [.mark .ready], serve := [.untilCancelled] } },
    { name := "pump"
      behaviour := fun _ ↦ { start := [.sleep 100], serve := [.untilCancelled] } }]

/-- In the depot, everybody waits 50 milliseconds for the others. -/
def Setup.depot : Setup where
  settings := { Settings.standard with startupTimeout := .ofMillis 50 }
  posts := (posts? Resource.depot).toOption.getD #[]

/-- The store opens and the gate with it, and the yard waits for the pump. -/
def Cue.opening : List Cue :=
  turns [(.cycle 3, 1), (.cycle 1, 2), (.cycle 0, 4), (.cycle 1, 2), (.cycle 2, 3), (.cycle 3, 1),
    (.relay, 7), (.watcher 0, 7), (.confirmation 0, 1), (.confirmation 1, 1)]

namespace State

/-- Every cycle of the depot was started, and none has begun. -/
def depotBegun : State := (asked .depot).play .depot [.turn .host]

/-- The yard has waited for the pump as long as it may. -/
def depotWaits : State :=
  ((depotBegun.step .depot (.cycle 3)).play .depot Cue.opening).passTo 50

/-- The yard has given up. -/
def depotLate : State := depotWaits.step .depot (.cycle 3)

theorem table_depot : Setup.posts? Resource.depot = .ok Setup.depot.posts :=
  Setup.posts?_eq_ok_of_isOk (by decide +kernel)

theorem isMeek_depot : Setup.depot.IsMeek := by
  refine Setup.isMeek_of_posts? table_depot fun r hr n hook a ha m mark ↦ ?_
  subst mark
  simp only [Resource.depot, List.mem_cons, List.not_mem_nil, or_false] at hr
  rcases hr with rfl | rfl | rfl | rfl <;> cases hook <;>
    simp [Behaviour.script, Resource.gate, Resource.yard] at ha
  rw [ha]
  rfl

theorem reaches_depotWaits :
    Reaches .depot (· = .call) (depotBegun.step .depot (.cycle 3)) depotWaits := by
  have opens : Reaches .depot (· = .call) (depotBegun.step .depot (.cycle 3))
      ((depotBegun.step .depot (.cycle 3)).play .depot Cue.opening) :=
    reaches_play (.refl _) (by decide +kernel)
      fun d hd ↦ absurd hd (Cue.deed_notMem_turns d _)
  exact reaches_passTo opens (by decide +kernel)

end State

/-- The gate calls its start hook after it has seen the store ready, and the yard, which has seen no
more than that when its time is up, fails and names the pump. -/
theorem depot_is_gated :
    (∃ (b : State) (j : Nat), b.Begins 1 1 ∧
      State.SeesReady .depot (· = .call) 1 0 j (b.step .depot (.cycle 1)) State.depotLate) ∧
      State.GivesUp .depot .yard 3 3 0 State.depotWaits State.depotLate := by
  have begun : Reaches .depot (· = .call) (State.atRest .depot) State.depotBegun :=
    State.reaches_play (State.reaches_asked .depot rfl) (by decide +kernel) (by simp)
  have yard : State.depotBegun.Begins 3 3 :=
    ⟨{ place := 3 }, .new "yard", by decide +kernel, rfl, rfl, by decide +kernel, rfl⟩
  have first : State.depotBegun.isEnabled (.cycle 3) = true := by decide +kernel
  have waits : Reaches .depot (· = .call) (State.atRest .depot) State.depotWaits :=
    (begun.step (.turn (.cycle 3) first)).trans State.reaches_depotWaits
  have last : Step .depot (· = .call) State.depotWaits State.depotLate :=
    .turn (.cycle 3) (by decide +kernel)
  refine ⟨?_, ?_⟩
  · have called : (State.depotLate.chronicle[16]?).map (·.what) = some (.called 1 .start) := by
      decide +kernel
    have cycle : (State.depotLate.cycles[1]?).map (·.place) = some 1 := by decide +kernel
    obtain ⟨x, hx, what⟩ := Option.map_eq_some_iff.1 called
    obtain ⟨c, hc, place⟩ := Option.map_eq_some_iff.1 cycle
    obtain ⟨b, -, begins, -, sees⟩ := (startup_is_gated State.table_depot (r := .gate) (p := 1)
      List.mem_cons_self (by decide +kernel) 1).1 _ c 16 x (waits.step last) hc place hx what
    exact ⟨b, 16, begins, sees "store" List.mem_cons_self 0 (by decide +kernel)⟩
  · have ends : State.EndsWell .depot (· = .call) (State.atRest .depot) .yard 3 3 :=
      (startup_is_gated State.table_depot (r := .yard) (p := 3)
        (List.mem_cons_of_mem _ List.mem_cons_self) (by decide +kernel) 3).2 State.isMeek_depot
          Deed.isMeek_call (by decide)
    have stage : (State.depotWaits.cycles[3]?).map (fun c ↦ (c.place, decide (c.stage = .finished)))
        = some (3, false) := by
      decide +kernel
    obtain ⟨c, hc, going⟩ := Option.map_eq_some_iff.1 stage
    obtain ⟨uncalled, kept⟩ :=
      State.silent_of_all (s := State.depotLate) (i := 3) (by decide +kernel)
    exact ends.ends _ _ _ begun yard State.reaches_depotWaits last
      ⟨c, hc, congrArg Prod.fst going, of_decide_eq_false (congrArg Prod.snd going)⟩
      (by decide +kernel) uncalled kept

/-! ### A resource that has crashed and runs again -/

/-- Its resource crashes when it starts for the first time. -/
def Setup.relapsing : Setup := .single fun
  | 0 => { start := [.giveUp (.fatal "boom")] }
  | _ => { serve := [.untilCancelled] }

/-- A run of it from start to end, and the beginning of another one. -/
def Cue.relapse : List Cue :=
  turns [(.host, 1), (.cycle 0, 4), (.watcher 0, 4), (.host, 2), (.relay, 7), (.host, 2)] ++
    .deed .call :: turns [(.host, 1)]

/-- The relapsing resource runs another time. -/
def State.relapsingAgain : State := (State.asked .relapsing).play .relapsing Cue.relapse

/-- In the second run the cycle of the relapsing resource ends at once, without having called its
start hook, and leaves the resource crashed. -/
theorem relapsing_is_turned_away :
    Setup.relapsing.IsMeek ∧ Deed.IsMeek (· = .call) ∧
      Setup.relapsing.settings.startupTimeout.isBeyondClocks = false ∧
      ∃ s t, Reaches .relapsing (· = .call) (State.atRest .relapsing) s ∧
        Step .relapsing (· = .call) s t ∧ s.IsGoing 0 1 ∧ t.cycleIsOver 1 = true ∧
        ¬ t.HasCalled 1 ∧ ¬ t.IsAborted 1 ∧
        ∃ l, t.lifecycle? 0 = some l ∧ l.status = .crashed := by
  have meek : Setup.relapsing.IsMeek := by
    intro p post hp n hook a ha m mark
    subst mark
    have single : post.behaviour = fun
        | 0 => { start := [.giveUp (.fatal "boom")] }
        | _ => { serve := [.untilCancelled] } := by
      have mem := Array.mem_of_getElem? hp
      rw [Array.mem_singleton.1 mem]
    rw [single] at ha
    cases n <;> cases hook <;> simp [Behaviour.script] at ha
  have again : Reaches .relapsing (· = .call) (State.atRest .relapsing) State.relapsingAgain :=
    State.reaches_play (State.reaches_asked .relapsing rfl) (by decide +kernel)
      (by simp [Cue.relapse, Cue.deed_notMem_turns])
  have last : Step .relapsing (· = .call) State.relapsingAgain
      (State.relapsingAgain.step .relapsing (.cycle 1)) :=
    .turn (.cycle 1) (by decide +kernel)
  obtain ⟨uncalled, kept⟩ := State.silent_of_all
    (s := State.relapsingAgain.step .relapsing (.cycle 1)) (i := 1) (by decide +kernel)
  have crashed : ((State.relapsingAgain.step .relapsing (.cycle 1)).lifecycle? 0).map (·.status)
      = some .crashed := by
    decide +kernel
  exact ⟨meek, Deed.isMeek_call, by decide, _, _, again, last,
    ⟨{ place := 0 }, by decide +kernel, rfl, nofun⟩, by decide +kernel, uncalled, kept,
    Option.map_eq_some_iff.1 crashed⟩

end Supervision
