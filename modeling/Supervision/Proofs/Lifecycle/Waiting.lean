import Mathlib.Data.List.Forall2
import Supervision.Proofs.Supervisor.Waits

/-!
# How a wait for readiness ends

While a wait goes on, others take turns, and it looks after each of them. What it finds then are its
**glimpses**: at its beginning, after every turn up to the deadline, and at the deadline. A resource
counts as seen if one of them shows it ready before the shutdown, whether or not it stays ready.

The wait goes through its glimpses one by one and ends with the first that settles it (`Ending`):
everything was seen by then, or the shutdown has begun, or the deadline has come.

* `Follows.ends`, `Follows.goesOn` — what one look makes of a wait.
* `wait_ends_rightly` — how a wait ends, whatever others do in whichever turns.
-/

namespace Supervision

namespace Ensemble

/-! ### Glimpses -/

/-- What a wait finds when it looks. -/
structure Glimpse where
  /-- The moment, in milliseconds. -/
  moment : Nat
  /-- The resources and the shutdown then. -/
  ensemble : Ensemble

namespace Glimpse

/-- The shutdown has begun. -/
def isRequested (g : Glimpse) : Bool := g.ensemble.shutdown.isRequested

/-- The resource in a place can be seen ready. -/
def shows (g : Glimpse) (p : Nat) : Bool := g.ensemble.isReady p && !g.isRequested

/-- One look of a wait. -/
def settle (g : Glimpse) (w : Wait) : Wait := w.look g.moment g.isRequested g.ensemble.isReady

end Glimpse

/-- One of the glimpses shows the resource in a place ready. -/
def isSeen (gs : List Glimpse) (p : Nat) : Bool := gs.any (·.shows p)

/-- The glimpses of a wait from its second look on. -/
def glimpsesAfter (deadline : Nat) : List Turn → Ensemble → List Glimpse
  | [], e => [⟨deadline, e⟩]
  | turn :: rest, e =>
    if deadline < turn.moment then [⟨deadline, e⟩]
    else
      ⟨turn.moment, e.changeAll turn.changes⟩ ::
        glimpsesAfter deadline rest (e.changeAll turn.changes)

/-- All that a wait can find when it looks: at its beginning, after each turn that others take by
the deadline, and at the deadline. -/
def glimpses (now deadline : Nat) (turns : List Turn) (e : Ensemble) : List Glimpse :=
  ⟨now, e⟩ :: glimpsesAfter deadline turns e

theorem isSeen_concat (past : List Glimpse) (g : Glimpse) (p : Nat) :
    isSeen (past ++ [g]) p = (isSeen past p || g.shows p) := by
  simp [isSeen]

theorem isSeen_mono {gs more : List Glimpse} {p : Nat} (sub : gs ⊆ more)
    (h : isSeen gs p = true) : isSeen more p = true := by
  obtain ⟨g, hg, shows⟩ := List.any_eq_true.1 h
  exact List.any_eq_true.2 ⟨g, sub hg, shows⟩

/-! ### One look -/

/-- How a wait for the resources in some places ends with its last glimpse. -/
structure Ending (places : List Nat) (deadline : Nat) (past : List Glimpse) (last : Glimpse)
    (result : WaitResult) : Prop where
  /-- It succeeds exactly if everything was seen ready. -/
  ready : result = .ready ↔ ∀ p ∈ places, isSeen (past ++ [last]) p = true
  /-- It ends by the shutdown exactly if that has begun before everything was seen. -/
  shutdown : result = .shutdown ↔
    last.isRequested = true ∧ ∃ p ∈ places, isSeen past p = false
  /-- It is too late only at the deadline, and then names what it never saw, in order. -/
  timedOut : ∀ late, result = .timedOut late → deadline ≤ last.moment ∧ late ≠ [] ∧
    late = places.filter fun p ↦ !isSeen (past ++ [last]) p

/-- A wait that some glimpses have left open: it keeps what they have shown, the shutdown was not
among it, and something is left to be seen. -/
structure Follows (places : List Nat) (past : List Glimpse) (w : Wait) : Prop where
  tracks : ∃ seen, w.Tracks places seen ∧ ∀ p ∈ places, p ∈ seen ↔ isSeen past p = true
  calm : ∀ g ∈ past, g.isRequested = false
  early : ∀ g ∈ past, g.moment < w.deadline
  unseen : past ≠ [] → ∃ p ∈ places, isSeen past p = false

section Look

variable {places seen : List Nat} {past : List Glimpse} {g : Glimpse} {w : Wait} {p : Nat}

theorem shows_iff : g.shows p = true ↔
    Wait.endNow? w.deadline g.moment g.isRequested (g.ensemble.isReady p) = some .ready := by
  unfold Glimpse.shows Wait.endNow?
  cases g.isRequested <;> cases g.ensemble.isReady p <;> simp

/-- What is kept after a look is what the glimpses show, together with the new one. -/
theorem mem_seen_settle (tracks : w.Tracks places seen)
    (kept : ∀ p ∈ places, p ∈ seen ↔ isSeen past p = true) (hp : p ∈ places) :
    p ∈ seen ++ w.newlyReady (g.settle w) ↔ isSeen (past ++ [g]) p = true := by
  rw [List.mem_append, isSeen_concat, Bool.or_eq_true, ← kept p hp, shows_iff (w := w)]
  have new : p ∈ w.newlyReady (g.settle w) ↔ _ := Wait.mem_newlyReady_iff
  rw [new]
  constructor
  · exact fun h ↦ h.imp_right And.right
  · intro h
    by_cases old : p ∈ seen
    · exact .inl old
    · refine .inr ⟨?_, h.resolve_left old⟩
      rw [← tracks.places] at hp
      obtain ⟨x, hx, rfl⟩ := List.mem_map.1 hp
      have open' : x.2 = none :=
        (tracks.waiting x hx).resolve_right fun ready ↦ old ((tracks.seen x hx).1 ready)
      rw [← open']
      exact hx

/-- Something that a wait has not seen is open, and every look that meets the shutdown settles it
that way. -/
theorem settle_of_requested (tracks : w.Tracks places seen) (asked : g.isRequested = true)
    (hp : p ∈ places) (new : p ∉ seen) : (g.settle w).result? = some .shutdown := by
  have ends : ∀ x ∈ (g.settle w).entries,
      (x.2 = some .ready ∧ x.1 ∈ seen) ∨ x.1 ∉ seen ∧ x.2 = some .shutdown := by
    intro x hx
    rcases tracks.entry hx with old | ⟨unseen, -, settled⟩
    · exact .inl old
    · refine .inr ⟨unseen, settled.trans ?_⟩
      unfold Wait.endNow?
      rw [if_pos asked]
  have all : (g.settle w).entries.all (·.2.isSome) = true := by
    refine List.all_eq_true.2 fun x hx ↦ ?_
    rcases ends x hx with ⟨ready, -⟩ | ⟨-, ended⟩
    · rw [ready]; rfl
    · rw [ended]; rfl
  have any : (g.settle w).entries.any (·.2 == some .shutdown) = true := by
    have here : p ∈ (g.settle w).entries.map (·.1) := by
      rw [show (g.settle w).entries.map (·.1) = places from tracks.places_look]
      exact hp
    obtain ⟨x, hx, rfl⟩ := List.mem_map.1 here
    refine List.any_eq_true.2 ⟨x, hx, ?_⟩
    rcases ends x hx with ⟨-, old⟩ | ⟨-, ended⟩
    · exact absurd old new
    · rw [ended]; rfl
  unfold Wait.result?
  rw [if_pos all, if_pos any]

/-- **A look that ends a wait ends it rightly.** -/
theorem Follows.ends {result : WaitResult} (h : Follows places past w)
    (ended : (g.settle w).result? = some result) :
    Ending places w.deadline past g result := by
  obtain ⟨seen, tracks, kept⟩ := h.tracks
  have ready : result = .ready ↔ ∀ p ∈ places, isSeen (past ++ [g]) p = true := by
    have all : result = .ready ↔ ∀ x ∈ (g.settle w).entries, x.2 = some .ready := by
      rw [← Wait.result?_eq_some_ready_iff, ended, Option.some.injEq]
    have places_ : (g.settle w).entries.map (·.1) = places := tracks.places_look
    rw [all]
    constructor
    · intro settled p hp
      rw [← places_] at hp
      obtain ⟨x, hx, rfl⟩ := List.mem_map.1 hp
      have hp : x.1 ∈ places := places_ ▸ List.mem_map_of_mem hx
      exact (mem_seen_settle tracks kept hp).1 ((tracks.seen_look hx).1 (settled x hx))
    · intro shown x hx
      have hp : x.1 ∈ places := places_ ▸ List.mem_map_of_mem hx
      exact (tracks.seen_look hx).2 ((mem_seen_settle tracks kept hp).2 (shown _ hp))
  refine ⟨ready, ⟨?_, ?_⟩, ?_⟩
  · rintro rfl
    have asked : g.isRequested = true := tracks.of_shutdown ended
    refine ⟨asked, ?_⟩
    -- Had everything been seen before, the look would have made a success of it.
    refine Classical.byContradiction fun none ↦ ?_
    have all : ∀ p ∈ places, isSeen (past ++ [g]) p = true := by
      intro p hp
      rw [isSeen_concat]
      cases old : isSeen past p with
      | true => rfl
      | false => exact absurd ⟨p, hp, old⟩ none
    cases ready.2 all
  · rintro ⟨asked, p, hp, unseen⟩
    have new : p ∉ seen := fun old ↦ by
      rw [(kept p hp).1 old] at unseen
      cases unseen
    exact Option.some.inj (ended.symm.trans (settle_of_requested tracks asked hp new))
  · rintro late rfl
    obtain ⟨late_, e⟩ := tracks.of_timedOut ended
    have named : late = places.filter fun p ↦ !isSeen (past ++ [g]) p := by
      refine e.trans (List.filter_congr fun p hp ↦ ?_)
      rw [Bool.eq_iff_iff, decide_eq_true_iff, Bool.not_eq_true', ← Bool.not_eq_true]
      exact not_congr (mem_seen_settle tracks kept hp)
    refine ⟨late_, ?_, named⟩
    rintro rfl
    obtain ⟨-, -, some_, none⟩ := Wait.result?_eq_timedOut ended
    exact some_ (List.map_eq_nil_iff.1 none.symm)

/-- A look that leaves a wait open leaves something to be seen, before the shutdown and before the
deadline. -/
theorem Follows.goesOn (h : Follows places past w) (going : (g.settle w).result? = none) :
    Follows places (past ++ [g]) (g.settle w) := by
  obtain ⟨seen, tracks, kept⟩ := h.tracks
  obtain ⟨calm, early⟩ := tracks.of_open going
  refine ⟨⟨_, tracks.look going, fun p hp ↦ mem_seen_settle tracks kept hp⟩, fun x hx ↦ ?_,
    fun x hx ↦ ?_, fun _ ↦ ?_⟩
  · rcases List.mem_append.1 hx with old | new
    · exact h.calm x old
    · cases List.mem_singleton.1 new
      exact calm
  · rcases List.mem_append.1 hx with old | new
    · exact h.early x old
    · cases List.mem_singleton.1 new
      exact early
  · refine Classical.byContradiction fun none ↦ ?_
    have places_ : (g.settle w).entries.map (·.1) = places := tracks.places_look
    have all : ∀ x ∈ (g.settle w).entries, x.2 = some .ready := by
      intro x hx
      have hp : x.1 ∈ places := places_ ▸ List.mem_map_of_mem hx
      refine (tracks.seen_look hx).2 ((mem_seen_settle tracks kept hp).2 ?_)
      cases shown : isSeen (past ++ [g]) x.1 with
      | true => rfl
      | false => exact absurd ⟨x.1, hp, shown⟩ none
    rw [Wait.result?_eq_some_ready_iff.2 all] at going
    cases going

end Look

/-! ### All the looks of a wait -/

/-- A wait comes to an end in the middle of its glimpses: with one that follows on those that left
it open. -/
structure IsEnd (places : List Nat) (deadline : Nat) (past : List Glimpse) (last : Glimpse)
    (result : WaitResult) : Prop extends Ending places deadline past last result where
  calm : ∀ g ∈ past, g.isRequested = false
  early : ∀ g ∈ past, g.moment < deadline
  unseen : past ≠ [] → ∃ p ∈ places, isSeen past p = false

section Looks

variable {places : List Nat} {past : List Glimpse} {w : Wait} {result : WaitResult}
  {deadline now : Nat} {rest : List Turn} {e : Ensemble}

theorem Follows.isEnd {g : Glimpse} (h : Follows places past w)
    (ended : (g.settle w).result? = some result) : IsEnd places w.deadline past g result :=
  { h.ends ended with calm := h.calm, early := h.early, unseen := h.unseen }

/-- The look at the deadline leaves nothing open. -/
theorem Follows.at_deadline (h : Follows places past w) (e : Ensemble) :
    IsEnd places w.deadline past ⟨w.deadline, e⟩ (((look w.deadline e w).result?).getD .ready) := by
  obtain ⟨seen, tracks, -⟩ := h.tracks
  cases ended : (look w.deadline e w).result? with
  | none => exact absurd (tracks.of_open ended).2 (Nat.lt_irrefl _)
  | some result => exact h.isEnd (g := ⟨w.deadline, e⟩) ended

/-- An open wait ends with one of the glimpses that are still to come. -/
theorem awaitOpen_ends (turns : List Turn) : ∀ {past : List Glimpse} {w : Wait} {e : Ensemble},
    Follows places past w → ∃ more,
      more ++ [⟨(e.awaitOpen w turns).2.1, (e.awaitOpen w turns).2.2⟩]
          <+: glimpsesAfter w.deadline turns e ∧
        IsEnd places w.deadline (past ++ more)
          ⟨(e.awaitOpen w turns).2.1, (e.awaitOpen w turns).2.2⟩ (e.awaitOpen w turns).1 := by
  -- The induction is on the turns; `Follows` carries over each look that leaves the wait open.
  induction turns with
  | nil =>
    intro past w e h
    refine ⟨[], List.prefix_rfl, ?_⟩
    rw [List.append_nil]
    exact h.at_deadline e
  | cons turn rest ih =>
    intro past w e h
    unfold awaitOpen glimpsesAfter
    by_cases late : w.deadline < turn.moment
    · rw [if_pos late, if_pos late]
      refine ⟨[], List.prefix_rfl, ?_⟩
      rw [List.append_nil]
      exact h.at_deadline e
    · rw [if_neg late, if_neg late]
      have looks : look turn.moment (e.changeAll turn.changes) w
          = Glimpse.settle ⟨turn.moment, e.changeAll turn.changes⟩ w := rfl
      simp only [looks]
      cases settled :
          (Glimpse.settle ⟨turn.moment, e.changeAll turn.changes⟩ w).result? with
      | some result =>
        refine ⟨[], ⟨_, rfl⟩, ?_⟩
        rw [List.append_nil]
        exact h.isEnd settled
      | none =>
        obtain ⟨more, prefix_, ends⟩ := ih (e := e.changeAll turn.changes) (h.goesOn settled)
        refine ⟨⟨turn.moment, e.changeAll turn.changes⟩ :: more, ?_, ?_⟩
        · exact List.cons_prefix_cons.2 ⟨rfl, prefix_⟩
        · rw [List.append_assoc] at ends
          exact ends

/-- A wait ends with one of its glimpses. -/
theorem awaitTurns_ends (now : Nat) (timeout : Span) (places : List Nat) (turns : List Turn)
    (e : Ensemble) : ∃ past,
      past ++ [⟨(e.awaitTurns now (.start now timeout places) turns).2.1,
          (e.awaitTurns now (.start now timeout places) turns).2.2⟩]
          <+: glimpses now (now + timeout.millisUp) turns e ∧
        IsEnd places (now + timeout.millisUp) past
          ⟨(e.awaitTurns now (.start now timeout places) turns).2.1,
            (e.awaitTurns now (.start now timeout places) turns).2.2⟩
          (e.awaitTurns now (.start now timeout places) turns).1 := by
  have starts : Follows places [] (.start now timeout places) :=
    { tracks := ⟨[], Wait.tracks_start now timeout places, by simp [isSeen]⟩
      calm := by simp
      early := by simp
      unseen := fun some ↦ absurd rfl some }
  unfold awaitTurns
  have looks : look now e (.start now timeout places)
      = Glimpse.settle ⟨now, e⟩ (.start now timeout places) := rfl
  simp only [looks]
  cases settled : (Glimpse.settle ⟨now, e⟩ (.start now timeout places)).result? with
  | some result => exact ⟨[], ⟨_, rfl⟩, starts.isEnd settled⟩
  | none =>
    obtain ⟨more, prefix_, ends⟩ := awaitOpen_ends turns (e := e) (starts.goesOn settled)
    exact ⟨⟨now, e⟩ :: more, List.cons_prefix_cons.2 ⟨rfl, prefix_⟩, ends⟩

/-- No glimpse comes after the deadline or before the turns that are left. -/
theorem moment_glimpsesAfter {from_ : Nat} (open_ : from_ ≤ deadline) {turns : List Turn}
    (rises : ∀ turn ∈ turns, from_ ≤ turn.moment) {g : Glimpse}
    (hg : g ∈ glimpsesAfter deadline turns e) : from_ ≤ g.moment ∧ g.moment ≤ deadline := by
  induction turns generalizing e with
  | nil =>
    cases List.mem_singleton.1 hg
    exact ⟨open_, Nat.le_refl _⟩
  | cons turn rest ih =>
    unfold glimpsesAfter at hg
    split at hg
    · cases List.mem_singleton.1 hg
      exact ⟨open_, Nat.le_refl _⟩
    · rename_i early
      rcases List.mem_cons.1 hg with rfl | later
      · exact ⟨rises turn List.mem_cons_self, Nat.le_of_not_lt early⟩
      · exact ih (fun t ht ↦ rises t (List.mem_cons_of_mem _ ht)) later

/-- Glimpses come in the order of their moments. -/
theorem glimpsesAfter_rises {turns : List Turn}
    (rises : (turns.map (·.moment)).Pairwise (· ≤ ·)) :
    (glimpsesAfter deadline turns e).Pairwise fun g g' ↦ g.moment ≤ g'.moment := by
  induction turns generalizing e with
  | nil => exact List.pairwise_singleton _ _
  | cons turn rest ih =>
    obtain ⟨first, rises⟩ := List.pairwise_cons.1 rises
    unfold glimpsesAfter
    split
    · exact List.pairwise_singleton _ _
    · rename_i early
      refine List.pairwise_cons.2 ⟨fun g hg ↦ ?_, ih rises⟩
      refine (moment_glimpsesAfter (Nat.le_of_not_lt early) (fun t ht ↦ ?_) hg).1
      exact first _ (List.mem_map_of_mem ht)

theorem moment_glimpses (open_ : now ≤ deadline) {turns : List Turn}
    {g : Glimpse} (hg : g ∈ glimpses now deadline turns e) : g.moment ≤ deadline := by
  rcases List.mem_cons.1 hg with rfl | later
  · exact open_
  · exact (moment_glimpsesAfter (Nat.zero_le _) (fun _ _ ↦ Nat.zero_le _) later).2

theorem glimpses_rise (open_ : now ≤ deadline) {turns : List Turn}
    (rises : (now :: turns.map (·.moment)).Pairwise (· ≤ ·)) :
    (glimpses now deadline turns e).Pairwise fun g g' ↦ g.moment ≤ g'.moment := by
  obtain ⟨first, rises⟩ := List.pairwise_cons.1 rises
  refine List.pairwise_cons.2 ⟨fun g hg ↦ ?_, glimpsesAfter_rises rises⟩
  exact (moment_glimpsesAfter open_ (fun t ht ↦ first _ (List.mem_map_of_mem ht)) hg).1

/-- A wait that has not seen everything when the shutdown begins before the deadline ends by it. -/
theorem IsEnd.of_requested {last g : Glimpse} {before after : List Glimpse}
    (h : IsEnd places deadline past last result)
    (rises : (before ++ g :: after).Pairwise fun g g' ↦ g.moment ≤ g'.moment)
    (looked : past ++ [last] <+: before ++ g :: after) (asked : g.isRequested = true)
    (early : g.moment < deadline) (unseen : ∃ p ∈ places, isSeen before p = false) :
    result = .shutdown := by
  rcases Nat.lt_trichotomy past.length before.length with shorter | same | longer
  · -- It has ended before: not too late, and not with everything seen.
    have within : past ++ [last] <+: before :=
      List.prefix_of_prefix_length_le looked (List.prefix_append before (g :: after))
        (by simpa [Nat.succ_le_iff] using shorter)
    have here : last ∈ before := within.subset (by simp)
    cases result with
    | shutdown => rfl
    | ready =>
      obtain ⟨p, hp, missing⟩ := unseen
      have seen := isSeen_mono within.subset (h.ready.1 rfl p hp)
      rw [missing] at seen
      cases seen
    | timedOut late =>
      have late_ : deadline ≤ last.moment := (h.timedOut late rfl).1
      have order := (List.pairwise_append.1 rises).2.2 last here g List.mem_cons_self
      exact absurd (Nat.le_trans late_ order) (Nat.not_le_of_lt early)
  · -- The glimpse is the one with which it ends.
    obtain ⟨tail, split⟩ := looked
    rw [List.append_assoc] at split
    obtain ⟨rfl, here⟩ := List.append_inj split same
    obtain ⟨rfl, -⟩ := List.cons.inj here
    exact h.shutdown.2 ⟨asked, unseen⟩
  · -- A wait that goes on has not met the shutdown.
    have within : before ++ [g] <+: past := by
      have both : before ++ [g] <+: before ++ g :: after := ⟨after, by simp⟩
      exact List.prefix_of_prefix_length_le both ((List.prefix_append past [last]).trans looked)
        (by simpa [Nat.succ_le_iff] using longer)
    have calm := h.calm g (within.subset (by simp))
    rw [asked] at calm
    cases calm

end Looks

/-! ### What is told of those that are late -/

section Late

variable {e : Ensemble}

theorem size_of_mark {place : Nat} {m : Mark} {x : List Event × Ensemble}
    (h : e.mark place m = .ok x) : x.2.members.size = e.members.size := by
  unfold mark at h
  split at h
  · cases h; rfl
  · split at h
    · cases h
    · cases h; exact Array.size_setIfInBounds

theorem size_change (c : Change) (e : Ensemble) : (e.change c).members.size = e.members.size := by
  cases c with
  | request c => rfl
  | mark place m =>
    unfold change
    dsimp only
    cases marked : e.mark place m with
    | error illegal => rfl
    | ok x => exact size_of_mark marked

theorem size_changeAll (cs : List Change) (e : Ensemble) :
    (e.changeAll cs).members.size = e.members.size := by
  induction cs generalizing e with
  | nil => rfl
  | cons c rest ih => exact (ih (e.change c)).trans (size_change c e)

/-- No resource joins or leaves while a wait goes on. -/
theorem size_glimpsesAfter {deadline : Nat} {turns : List Turn} {g : Glimpse}
    (hg : g ∈ glimpsesAfter deadline turns e) : g.ensemble.members.size = e.members.size := by
  induction turns generalizing e with
  | nil => cases List.mem_singleton.1 hg; rfl
  | cons turn rest ih =>
    unfold glimpsesAfter at hg
    split at hg
    · cases List.mem_singleton.1 hg; rfl
    · rcases List.mem_cons.1 hg with rfl | later
      · exact size_changeAll turn.changes e
      · exact (ih later).trans (size_changeAll turn.changes e)

/-- Those named are the resources in the places, in their order, each with what it says then. -/
theorem pending_forall₂ {places : List Nat} (there : ∀ p ∈ places, p < e.members.size) :
    List.Forall₂ (fun p x ↦ ∃ c, e.members[p]? = some c ∧ x = ⟨c.name, c.readiness.reason⟩)
      places (e.pending places) := by
  induction places with
  | nil => exact .nil
  | cons p rest ih =>
    obtain ⟨c, member⟩ : ∃ c, e.members[p]? = some c :=
      ⟨_, Array.getElem?_eq_getElem (there p List.mem_cons_self)⟩
    unfold pending at ih ⊢
    rw [List.filterMap_cons, member]
    exact .cons ⟨_, member, rfl⟩ (ih fun q hq ↦ there q (List.mem_cons_of_mem _ hq))

end Late

/-! ### The end of a wait -/

/-- How a wait from `now` on for the resources in some places comes to its end at a moment, having
looked at the glimpses `past` and then at `last`. -/
structure EndsRightly (places : List Nat) (now deadline : Nat) (turns : List Turn) (e : Ensemble)
    (past : List Glimpse) (last : Glimpse) (result : WaitResult) : Prop where
  /-- It looks at its glimpses one after the other. -/
  looked : past ++ [last] <+: glimpses now deadline turns e
  /-- It ends by the deadline. -/
  inTime : last.moment ≤ deadline
  /-- It goes on only while something was not seen and the shutdown has not begun. -/
  going : ∀ before g after, past = before ++ g :: after →
    g.isRequested = false ∧ ∃ p ∈ places, isSeen (before ++ [g]) p = false
  /-- It succeeds only after everything was seen ready. -/
  ready : result = .ready → ∀ p ∈ places, isSeen (past ++ [last]) p = true
  /-- It ends by the shutdown only after that has begun. -/
  shutdown : result = .shutdown → last.isRequested = true
  /-- It ends by the shutdown if that begins before the deadline and before everything was seen. -/
  told : ∀ before g after, glimpses now deadline turns e = before ++ g :: after →
    g.isRequested = true → g.moment < deadline → (∃ p ∈ places, isSeen before p = false) →
    result = .shutdown
  /-- It is too late only at the deadline, and then tells of all those that it has never seen, in
  order, why each is not ready at that moment. -/
  timedOut : ∀ late, result = .timedOut late → last.moment = deadline ∧ late ≠ [] ∧
    late = places.filter (fun p ↦ !isSeen (past ++ [last]) p) ∧
    List.Forall₂ (fun p x ↦ ∃ c, last.ensemble.members[p]? = some c ∧
      x = ⟨c.name, c.readiness.reason⟩) late (last.ensemble.pending late)

/-- **How a wait for readiness ends.** Whatever others do in whichever turns, a wait for any
resources, repetitions allowed, ends by its deadline: with success once everything was seen, by the
shutdown once that has begun, and else at the deadline with all that it has never seen. -/
theorem wait_ends_rightly (e : Ensemble) (places : List Nat) (now : Nat) (timeout : Span)
    (turns : List Turn) (there : ∀ p ∈ places, p < e.members.size)
    (rises : (now :: turns.map (·.moment)).Pairwise (· ≤ ·)) :
    ∃ past last result,
      e.awaitTurns now (.start now timeout places) turns
        = (result, last.moment, last.ensemble) ∧
      EndsRightly places now (now + timeout.millisUp) turns e past last result := by
  obtain ⟨past, looked, ends⟩ := awaitTurns_ends now timeout places turns e
  revert looked ends
  generalize e.awaitTurns now (.start now timeout places) turns = end_
  obtain ⟨result, t, e'⟩ := end_
  intro looked ends
  have open_ : now ≤ now + timeout.millisUp := Nat.le_add_right _ _
  have mem : ⟨t, e'⟩ ∈ glimpses now (now + timeout.millisUp) turns e := looked.subset (by simp)
  have inTime : t ≤ now + timeout.millisUp := moment_glimpses open_ mem
  have size : e'.members.size = e.members.size := by
    rcases List.mem_cons.1 mem with first | later
    · cases first; rfl
    · exact size_glimpsesAfter later
  refine ⟨past, ⟨t, e'⟩, result, rfl, ?_⟩
  exact
    { looked := looked
      inTime := inTime
      going := by
        rintro before g after rfl
        refine ⟨ends.calm g (by simp), ?_⟩
        obtain ⟨p, hp, missing⟩ := ends.unseen (by simp)
        refine ⟨p, hp, Bool.eq_false_iff.2 fun seen ↦ ?_⟩
        have sub : before ++ [g] ⊆ before ++ g :: after := fun x hx ↦ by
          rcases List.mem_append.1 hx with old | new
          · exact List.mem_append_left _ old
          · exact List.mem_append_right _ (List.mem_singleton.1 new ▸ List.mem_cons_self)
        rw [isSeen_mono sub seen] at missing
        cases missing
      ready := ends.ready.1
      shutdown := fun met ↦ (ends.shutdown.1 met).1
      told := fun before g after split asked early unseen ↦
        ends.of_requested (split ▸ glimpses_rise open_ rises) (split ▸ looked) asked early unseen
      timedOut := by
        intro late tooLate
        obtain ⟨reached, some_, named⟩ := ends.timedOut late tooLate
        refine ⟨Nat.le_antisymm inTime reached, some_, named, pending_forall₂ fun p hp ↦ ?_⟩
        rw [named] at hp
        exact Nat.lt_of_lt_of_eq (there p (List.mem_filter.1 hp).1) size.symm }

/-- Two resources, none of them started. -/
def pair : Ensemble := .ofNames ⟨8, #[]⟩ ["cache", "web"]

/-- The first is ready for a while only, the second never. -/
def flapping : List Turn :=
  [⟨10, [.mark 0 .ready]⟩, ⟨25, [.mark 0 (.notReady "reload"), .mark 1 (.notReady "no auth")]⟩]

/-- A wait for one of them twice and for the other: the one that was ready for a while is not
late. -/
theorem wait_ends_rightly_flapping :
    (∀ p ∈ [1, 0, 1], p < pair.members.size) ∧ (0 :: flapping.map (·.moment)).Pairwise (· ≤ ·) ∧
      (pair.awaitTurns 0 (.start 0 (.ofMillis 200) [1, 0, 1]) flapping).1 = .timedOut [1, 1] ∧
      (pair.awaitTurns 0 (.start 0 (.ofMillis 200) [1, 0, 1]) flapping).2.2.pending [1, 1]
        = [⟨"web", some "no auth"⟩, ⟨"web", some "no auth"⟩] ∧
      ∃ past last result,
        pair.awaitTurns 0 (.start 0 (.ofMillis 200) [1, 0, 1]) flapping
          = (result, last.moment, last.ensemble) ∧
        EndsRightly [1, 0, 1] 0 200 flapping pair past last result :=
  have there : ∀ p ∈ [1, 0, 1], p < pair.members.size := by decide
  have rises : (0 :: flapping.map (·.moment)).Pairwise (· ≤ ·) := by decide
  ⟨there, rises, by decide +kernel, by decide +kernel,
    wait_ends_rightly pair [1, 0, 1] 0 (.ofMillis 200) flapping there rises⟩

end Ensemble

end Supervision
