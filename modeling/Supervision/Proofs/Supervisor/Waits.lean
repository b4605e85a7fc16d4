import Supervision.Supervisor.Cycle

/-!
# What a wait has seen

A wait for several resources goes on as long as it has seen some of them ready and none of the
others has come to an end (`Wait.Tracks`). So how it ends tells what it has seen: when it is through
it has seen all of them, and when it is too late it names exactly those that it has not seen, in
order.

* `Wait.Tracks.look` — a look that leaves something open keeps track.
* `Wait.Tracks.of_ready`, `Wait.Tracks.of_shutdown`, `Wait.Tracks.of_timedOut` — what an end tells.
-/

namespace Supervision

namespace Wait

variable {w : Wait} {now deadline : Nat} {shutdown ready : Bool} {isReady : Nat → Bool}
  {needs seen : List Nat}

/-- It waits for these places, in this order. Those among them that were seen ready are settled, and
no others. -/
structure Tracks (needs seen : List Nat) (w : Wait) : Prop where
  places : w.entries.map (·.1) = needs
  waiting : ∀ x ∈ w.entries, x.2 = none ∨ x.2 = some .ready
  seen : ∀ x ∈ w.entries, x.2 = some .ready ↔ x.1 ∈ seen

theorem tracks_start (now : Nat) (timeout : Span) (needs : List Nat) :
    (start now timeout needs).Tracks needs [] where
  places := by
    unfold start
    rw [List.map_map]
    exact List.map_id _
  waiting x hx := by
    obtain ⟨p, -, rfl⟩ := List.mem_map.1 hx
    exact .inl rfl
  seen x hx := by
    obtain ⟨p, -, rfl⟩ := List.mem_map.1 hx
    simp

/-- What ends now ends by the shutdown, by being seen ready, or by the deadline. -/
theorem endNow?_cases (deadline now : Nat) (shutdown ready : Bool) :
    (shutdown = true ∧ endNow? deadline now shutdown ready = some .shutdown) ∨
      (shutdown = false ∧ ready = true ∧ endNow? deadline now shutdown ready = some .ready) ∨
      (shutdown = false ∧ ready = false ∧ deadline ≤ now ∧
        endNow? deadline now shutdown ready = some .timedOut) ∨
      (shutdown = false ∧ ready = false ∧ now < deadline ∧
        endNow? deadline now shutdown ready = none) := by
  unfold endNow?
  cases shutdown <;> cases ready <;> simp
  omega

theorem isReady_of_endNow? (h : endNow? deadline now shutdown ready = some .ready) :
    ready = true := by
  rcases endNow?_cases deadline now shutdown ready with ⟨-, e⟩ | ⟨-, r, -⟩ | ⟨-, -, -, e⟩ |
    ⟨-, -, -, e⟩
  · rw [e] at h; cases h
  · exact r
  · rw [e] at h; cases h
  · rw [e] at h; cases h

/-- What a look makes of an entry. -/
def settle (deadline now : Nat) (shutdown : Bool) (isReady : Nat → Bool)
    (x : Nat × Option WaitEnd) : Nat × Option WaitEnd :=
  (x.1, x.2.or (endNow? deadline now shutdown (isReady x.1)))

theorem entries_look (w : Wait) (now : Nat) (shutdown : Bool) (isReady : Nat → Bool) :
    (w.look now shutdown isReady).entries
      = w.entries.map (settle w.deadline now shutdown isReady) := rfl

theorem mem_newlyReady_iff {q : Nat} :
    q ∈ w.newlyReady (w.look now shutdown isReady) ↔
      (q, none) ∈ w.entries ∧ endNow? w.deadline now shutdown (isReady q) = some .ready := by
  have pairs : w.entries.zip (w.look now shutdown isReady).entries
      = w.entries.map fun x ↦ (x, settle w.deadline now shutdown isReady x) := by
    rw [entries_look]
    have zip := List.zip_map' (l := w.entries) (f := id)
      (g := settle w.deadline now shutdown isReady)
    rwa [List.map_id] at zip
  unfold newlyReady
  rw [pairs, List.filter_map, List.map_map]
  constructor
  · intro h
    obtain ⟨⟨p, e⟩, hx, rfl⟩ := List.mem_map.1 h
    obtain ⟨hx, ready⟩ := List.mem_filter.1 hx
    cases e with
    | some e => simp at ready
    | none =>
      refine ⟨hx, ?_⟩
      simpa [settle] using ready
  · rintro ⟨hx, ready⟩
    refine List.mem_map.2 ⟨(q, none), List.mem_filter.2 ⟨hx, ?_⟩, rfl⟩
    simp [settle, ready]

theorem isReady_of_mem_newlyReady {q : Nat}
    (h : q ∈ w.newlyReady (w.look now shutdown isReady)) : isReady q = true :=
  isReady_of_endNow? (mem_newlyReady_iff.1 h).2

theorem result?_eq_timedOut {late : List Nat} (h : w.result? = some (.timedOut late)) :
    (∀ x ∈ w.entries, x.2 ≠ none) ∧ (∀ x ∈ w.entries, x.2 ≠ some .shutdown) ∧
      w.entries.filter (·.2 != some .ready) ≠ [] ∧
      late = (w.entries.filter (·.2 != some .ready)).map (·.1) := by
  unfold result? at h
  split at h
  · rename_i settled
    split at h
    · cases h
    · rename_i calm
      split at h
      · cases h
      · rename_i kept
        cases h
        refine ⟨fun x hx none ↦ ?_, fun x hx ends ↦ calm ?_, kept, rfl⟩
        · have some := List.all_eq_true.1 settled x hx
          rw [none] at some
          cases some
        · exact List.any_eq_true.2 ⟨x, hx, by rw [ends]; rfl⟩
  · cases h

namespace Tracks

/-- What a look leaves of an entry. -/
theorem entry (h : w.Tracks needs seen) {x : Nat × Option WaitEnd}
    (hx : x ∈ (w.look now shutdown isReady).entries) :
    (x.2 = some .ready ∧ x.1 ∈ seen) ∨
      (x.1 ∉ seen ∧ (x.1, none) ∈ w.entries ∧
        x.2 = endNow? w.deadline now shutdown (isReady x.1)) := by
  obtain ⟨⟨p, e⟩, hb, rfl⟩ := List.mem_map.1 hx
  rcases h.waiting _ hb with rfl | rfl
  · refine .inr ⟨fun seen ↦ ?_, hb, Option.none_or⟩
    have ready := (h.seen _ hb).2 seen
    cases ready
  · exact .inl ⟨rfl, (h.seen _ hb).1 rfl⟩

theorem places_look (h : w.Tracks needs seen) :
    (w.look now shutdown isReady).entries.map (·.1) = needs := by
  rw [← h.places]
  exact List.map_map

theorem seen_look (h : w.Tracks needs seen) {x : Nat × Option WaitEnd}
    (hx : x ∈ (w.look now shutdown isReady).entries) :
    x.2 = some .ready ↔ x.1 ∈ seen ++ w.newlyReady (w.look now shutdown isReady) := by
  rw [List.mem_append, mem_newlyReady_iff]
  rcases h.entry hx with ⟨ready, old⟩ | ⟨new, open', settled⟩
  · simp [ready, old]
  · rw [settled]
    simp [new, open']

/-- Once every place was seen ready, all of them were. -/
theorem of_ready (h : w.Tracks needs seen)
    (done : (w.look now shutdown isReady).result? = some .ready) {q : Nat} (hq : q ∈ needs) :
    q ∈ seen ++ w.newlyReady (w.look now shutdown isReady) := by
  have places : (w.look now shutdown isReady).entries.map (·.1) = needs := h.places_look
  rw [← places] at hq
  obtain ⟨x, hx, rfl⟩ := List.mem_map.1 hq
  exact (h.seen_look hx).1 (result?_eq_some_ready_iff.1 done x hx)

/-- Where a look leaves something open, it neither meets the shutdown nor comes after the
deadline. -/
theorem of_open (h : w.Tracks needs seen) (going : (w.look now shutdown isReady).result? = none) :
    shutdown = false ∧ now < w.deadline := by
  unfold result? at going
  split at going
  · cases going
  · rename_i unsettled
    rw [List.all_eq_true, Classical.not_forall] at unsettled
    obtain ⟨x, hx⟩ := unsettled
    obtain ⟨mem, none⟩ := Classical.not_imp.1 hx
    rcases h.entry mem with ⟨ready, -⟩ | ⟨-, -, settled⟩
    · rw [ready] at none
      exact absurd rfl none
    · rcases endNow?_cases w.deadline now shutdown (isReady x.1) with ⟨-, e⟩ | ⟨-, -, e⟩ |
        ⟨-, -, -, e⟩ | ⟨here, -, early, -⟩
      · rw [settled, e] at none
        exact absurd rfl none
      · rw [settled, e] at none
        exact absurd rfl none
      · rw [settled, e] at none
        exact absurd rfl none
      · exact ⟨here, early⟩

/-- A wait that goes on keeps track. -/
theorem look (h : w.Tracks needs seen) (going : (w.look now shutdown isReady).result? = none) :
    (w.look now shutdown isReady).Tracks needs
      (seen ++ w.newlyReady (w.look now shutdown isReady)) where
  places := h.places_look
  seen x hx := h.seen_look hx
  waiting x hx := by
    obtain ⟨here, early⟩ := h.of_open going
    rcases h.entry hx with ⟨ready, -⟩ | ⟨-, -, settled⟩
    · exact .inr ready
    · rcases endNow?_cases w.deadline now shutdown (isReady x.1) with ⟨asked, -⟩ | ⟨-, -, e⟩ |
        ⟨-, -, late, -⟩ | ⟨-, -, -, e⟩
      · rw [here] at asked
        cases asked
      · exact .inr (settled.trans e)
      · exact absurd late (Nat.not_le_of_lt early)
      · exact .inl (settled.trans e)

/-- Only the shutdown ends a wait by the shutdown. -/
theorem of_shutdown (h : w.Tracks needs seen)
    (met : (w.look now shutdown isReady).result? = some .shutdown) : shutdown = true := by
  have some : ∃ x ∈ (w.look now shutdown isReady).entries, x.2 = some .shutdown := by
    unfold result? at met
    split at met
    · split at met
      · rename_i any
        obtain ⟨x, hx, e⟩ := List.any_eq_true.1 any
        exact ⟨x, hx, eq_of_beq e⟩
      · split at met <;> cases met
    · cases met
  obtain ⟨x, hx, ends⟩ := some
  rcases h.entry hx with ⟨ready, -⟩ | ⟨-, -, settled⟩
  · rw [ends] at ready
    cases ready
  · rw [ends] at settled
    rcases endNow?_cases w.deadline now shutdown (isReady x.1) with ⟨asked, -⟩ | ⟨-, -, e⟩ |
      ⟨-, -, -, e⟩ | ⟨-, -, -, e⟩
    · exact asked
    · rw [e] at settled; cases settled
    · rw [e] at settled; cases settled
    · rw [e] at settled; cases settled

/-- What was late was not seen ready, and the deadline has come. -/
theorem of_timedOut (h : w.Tracks needs seen) {late : List Nat}
    (ends : (w.look now shutdown isReady).result? = some (.timedOut late)) :
    w.deadline ≤ now ∧ late = needs.filter fun q ↦
      decide (q ∉ seen ++ w.newlyReady (w.look now shutdown isReady)) := by
  obtain ⟨settled, calm, kept, rfl⟩ := result?_eq_timedOut ends
  refine ⟨?_, ?_⟩
  · obtain ⟨x, hx⟩ := List.exists_mem_of_ne_nil _ kept
    obtain ⟨mem, unready⟩ := List.mem_filter.1 hx
    rcases h.entry mem with ⟨ready, -⟩ | ⟨-, -, e⟩
    · rw [ready] at unready
      cases unready
    · rcases endNow?_cases w.deadline now shutdown (isReady x.1) with ⟨-, k⟩ | ⟨-, -, k⟩ |
        ⟨-, -, late, -⟩ | ⟨-, -, -, k⟩
      · exact absurd (e.trans k) (calm x mem)
      · rw [e, k] at unready
        cases unready
      · exact late
      · exact absurd (e.trans k) (settled x mem)
  · have places : (w.look now shutdown isReady).entries.map (·.1) = needs := h.places_look
    rw [← places, List.filter_map]
    refine congrArg (List.map Prod.fst) (List.filter_congr fun x hx ↦ ?_)
    show (x.2 != some .ready) = decide (x.1 ∉ seen ++ w.newlyReady (w.look now shutdown isReady))
    rw [Bool.eq_iff_iff, bne_iff_ne, decide_eq_true_iff]
    exact not_congr (h.seen_look hx)

end Tracks
end Wait
end Supervision
