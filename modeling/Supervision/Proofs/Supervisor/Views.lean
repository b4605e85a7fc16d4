import Supervision.Proofs.Supervisor.Steps

/-!
# Parts of the state

A state is looked at through a few views: accounts, current cycles, cycles and restarts by their
numbers, lifecycles by their places. What the small operations do to each of them is said here, and
what fits the setup at every moment (`State.Fits`).

* `Lifecycle.mark_eq_ok` — a mark of a status moves to it; any other leaves the status.
* `Setup.place?_name` — where no two resources share a name, each is found in its own place.
-/

namespace Supervision

/-! ### What a mark does to a lifecycle -/

namespace Lifecycle

variable {m : Mark} {c c' : Lifecycle} {published : List Publication}

/-- What a move does that is carried out; the news of it stands at the end of what is published. -/
structure MovesTo (target : Status) (failure : Option Failure) (c c' : Lifecycle)
    (published : List Publication) : Prop where
  legal : c.status.allows target = true
  name : c'.name = c.name
  status : c'.status = target
  failures : c'.failures = if target = .failed then c.failures + 1 else c.failures
  lastFailure : c'.lastFailure = failure.or c.lastFailure
  news : ⟨.transition ⟨c.name, c.status, target, failure⟩, c'⟩ ∈ published

theorem movesTo_of_move {target : Status} {failure : Option Failure}
    (h : c.move target failure = .ok (c', published)) :
    MovesTo target failure c c' published := by
  unfold move at h
  split at h
  · rename_i legal
    cases hr : readinessAfter? target failure with
    | none =>
      rw [hr] at h
      cases h
      exact ⟨legal, rfl, rfl, rfl, rfl, by simp⟩
    | some r =>
      rw [hr] at h
      simp only [setReadiness] at h
      split at h <;> cases h <;> exact ⟨legal, rfl, rfl, rfl, rfl, by simp⟩
  · cases h

/-- A mark of a status moves to it; any other leaves the status and the count of failures. -/
theorem mark_eq_ok (h : c.mark m = .ok (c', published)) :
    (m.target? = none ∧ c'.name = c.name ∧ c'.status = c.status ∧ c'.failures = c.failures) ∨
      ∃ target, m.target? = some target ∧ MovesTo target m.failure? c c' published := by
  cases m with
  | starting => exact .inr ⟨_, rfl, movesTo_of_move h⟩
  | running => exact .inr ⟨_, rfl, movesTo_of_move h⟩
  | stopped => exact .inr ⟨_, rfl, movesTo_of_move h⟩
  | failed f => exact .inr ⟨_, rfl, movesTo_of_move h⟩
  | crashed f => exact .inr ⟨_, rfl, movesTo_of_move h⟩
  | ready =>
    simp only [mark, setReady, setReadiness] at h
    split at h
    · cases h
      exact .inl ⟨rfl, rfl, rfl, rfl⟩
    · split at h <;> cases h <;> exact .inl ⟨rfl, rfl, rfl, rfl⟩
  | notReady reason =>
    simp only [mark, setReadiness] at h
    split at h <;> cases h <;> exact .inl ⟨rfl, rfl, rfl, rfl⟩

theorem name_of_mark (h : c.mark m = .ok (c', published)) : c'.name = c.name := by
  rcases mark_eq_ok h with ⟨-, name, -⟩ | ⟨target, -, moved⟩
  · exact name
  · exact moved.name

end Lifecycle

/-! ### Names and places -/

namespace Setup

variable {S : Setup} {name : String} {p : Nat}

theorem exists_post_of_place? (h : S.place? name = some p) :
    ∃ post, S.posts[p]? = some post ∧ post.name = name := by
  obtain ⟨hp, he, -⟩ := List.idxOf?_eq_some_iff.1 h
  simp only [names, List.length_map, Array.length_toList, List.getElem_map,
    Array.getElem_toList] at hp he
  exact ⟨S.posts[p], Array.getElem?_eq_getElem hp, he⟩

theorem lt_of_place? (h : S.place? name = some p) : p < S.posts.size := by
  obtain ⟨post, hp, -⟩ := exists_post_of_place? h
  exact (Array.getElem?_eq_some_iff.1 hp).1

/-- Where no two resources share a name, each is found in its own place. -/
theorem place?_name (distinct : S.names.Nodup) {post : Post} (h : S.posts[p]? = some post) :
    S.place? post.name = some p := by
  obtain ⟨hp, he⟩ := Array.getElem?_eq_some_iff.1 h
  have hn : S.names[p]? = some post.name := by simp [names, h]
  have mem : post.name ∈ S.names := List.mem_of_getElem? hn
  obtain ⟨q, hq⟩ := Option.isSome_iff_exists.1 (List.isSome_idxOf?.2 mem)
  obtain ⟨hlt, hnq, -⟩ := List.idxOf?_eq_some_iff.1 hq
  have same : S.names[q]? = S.names[p]? := by rw [hn, List.getElem?_eq_getElem hlt, hnq]
  rw [place?, hq, (List.getElem?_inj hlt distinct).1 same]

end Setup

namespace State

variable {S : Setup} {s t : State}

/-! ### Views -/

/-- The current cycle of a place. -/
def run? (s : State) (place : Nat) : Option Nat := (s.members[place]?).bind (·.run)

theorem getElem?_modifyMember (s : State) (place q : Nat) (f : Member → Member) :
    (s.modifyMember place f).members[q]?
      = if place = q then (s.members[q]?).map f else s.members[q]? :=
  Array.getElem?_modify

theorem getElem?_close (q : Nat) :
    s.close.members[q]? = (s.members[q]?).map fun m ↦ { m with run := none } :=
  Array.getElem?_map

theorem account_modifyMember (s : State) (place : Nat) {f : Member → Member}
    (hf : ∀ m, (f m).account = m.account) (q : Nat) :
    (s.modifyMember place f).account q = s.account q := by
  rw [account, getElem?_modifyMember]
  split
  · cases hm : s.members[q]? <;> simp [account, hm, hf]
  · rfl

theorem account_setAccount (place : Nat) (a : Account) (q : Nat) :
    (s.setAccount place a).account q
      = if q = place ∧ q < s.members.size then a else s.account q := by
  rw [account, setAccount, getElem?_modifyMember]
  by_cases hq : place = q
  · subst hq
    by_cases hs : place < s.members.size <;> simp [account, hs]
  · simp [account, hq, Ne.symm hq]

theorem account_setAccount_self {place : Nat} (a : Account) (h : place < s.members.size) :
    (s.setAccount place a).account place = a := by
  rw [account_setAccount, if_pos ⟨rfl, h⟩]

theorem account_setAccount_of_ne {place q : Nat} (a : Account) (h : q ≠ place) :
    (s.setAccount place a).account q = s.account q := by
  rw [account_setAccount, if_neg fun ⟨he, _⟩ ↦ h he]

theorem account_of_members (h : t.members = s.members) (p : Nat) : t.account p = s.account p := by
  rw [account, h, account]

theorem account_close (p : Nat) : s.close.account p = s.account p := by
  rw [account, getElem?_close, account]
  cases s.members[p]? <;> rfl

theorem account_startCycle (place q : Nat) : (s.startCycle place).account q = s.account q :=
  account_modifyMember s place (f := fun m ↦ { m with run := some s.cycles.size }) (fun _ ↦ rfl) q

@[simp] theorem account_setRestart (j : Nat) (stage : RestartStage) (q : Nat) :
    (s.setRestart j stage).account q = s.account q := rfl

@[simp] theorem account_endRestart (j q : Nat) : (s.endRestart j).account q = s.account q := rfl

@[simp] theorem account_cancelCycle (i q : Nat) :
    (s.cancelCycle i).account q = s.account q := rfl

theorem run?_modifyMember (s : State) (place : Nat) {f : Member → Member}
    (hf : ∀ m, (f m).run = m.run) (q : Nat) : (s.modifyMember place f).run? q = s.run? q := by
  rw [run?, getElem?_modifyMember]
  split
  · cases hm : s.members[q]? <;> simp [run?, hm, hf]
  · rfl

theorem run?_setAccount (place : Nat) (a : Account) (q : Nat) :
    (s.setAccount place a).run? q = s.run? q :=
  run?_modifyMember s place (f := fun m ↦ { m with account := a }) (fun _ ↦ rfl) q

theorem run?_modifyMember_of_ne (s : State) {place q : Nat} (f : Member → Member)
    (h : q ≠ place) : (s.modifyMember place f).run? q = s.run? q := by
  rw [run?, getElem?_modifyMember, if_neg h.symm, run?]

theorem run?_startCycle_self {place : Nat} (h : place < s.members.size) :
    (s.startCycle place).run? place = some s.cycles.size := by
  show ((s.modifyMember place fun m ↦ { m with run := some s.cycles.size }).members[place]?).bind
    (·.run) = some s.cycles.size
  rw [getElem?_modifyMember, if_pos rfl, Array.getElem?_eq_getElem h]
  rfl

theorem run?_startCycle_of_ne {place q : Nat} (h : q ≠ place) :
    (s.startCycle place).run? q = s.run? q :=
  run?_modifyMember_of_ne s (fun m ↦ { m with run := some s.cycles.size }) h

theorem run?_takeRun {place : Nat} :
    (s.modifyMember place fun m ↦ { m with run := none }).run? place = none := by
  rw [run?, getElem?_modifyMember, if_pos rfl]
  cases s.members[place]? <;> rfl

theorem run?_close (q : Nat) : s.close.run? q = none := by
  rw [run?, getElem?_close]
  cases s.members[q]? <;> rfl

@[simp] theorem run?_setRestart (j : Nat) (stage : RestartStage) (q : Nat) :
    (s.setRestart j stage).run? q = s.run? q := rfl

@[simp] theorem run?_cancelCycle (i q : Nat) : (s.cancelCycle i).run? q = s.run? q := rfl

theorem run?_of_members (h : t.members = s.members) (p : Nat) : t.run? p = s.run? p := by
  rw [run?, h, run?]

theorem failures_eq {p : Nat} {c : Lifecycle} (h : s.lifecycle? p = some c) :
    s.failures p = c.failures := by
  rw [failures, h]
  rfl

/-! ### Cycles, restarts and confirmations, one by one -/

theorem getElem?_setCycle (i k : Nat) (stage : CycleStage) :
    (s.setCycle i stage).cycles[k]?
      = if i = k then (s.cycles[k]?).map fun c ↦ { c with stage := stage } else s.cycles[k]? :=
  Array.getElem?_modify

theorem setCycle_cases {i k : Nat} {stage : CycleStage} {c : Cycle}
    (h : (s.setCycle i stage).cycles[k]? = some c) :
    (k ≠ i ∧ s.cycles[k]? = some c) ∨
      k = i ∧ ∃ b, s.cycles[i]? = some b ∧ c = { b with stage := stage } := by
  rw [getElem?_setCycle] at h
  split at h
  · rename_i hk
    subst hk
    obtain ⟨b, hb, rfl⟩ := Option.map_eq_some_iff.1 h
    exact .inr ⟨rfl, b, hb, rfl⟩
  · exact .inl ⟨Ne.symm ‹_›, h⟩

theorem getElem?_setCycle_of_ne {i k : Nat} (stage : CycleStage) (h : k ≠ i) :
    (s.setCycle i stage).cycles[k]? = s.cycles[k]? := by
  rw [getElem?_setCycle, if_neg h.symm]

theorem getElem?_setCycle_self {i : Nat} {c : Cycle} (stage : CycleStage)
    (h : s.cycles[i]? = some c) :
    (s.setCycle i stage).cycles[i]? = some { c with stage := stage } := by
  rw [getElem?_setCycle, if_pos rfl, h]
  rfl

theorem getElem?_cancelCycle (i k : Nat) :
    (s.cancelCycle i).cycles[k]?
      = if i = k then (s.cycles[k]?).map fun c ↦ { c with cancelled := true }
        else s.cycles[k]? :=
  Array.getElem?_modify

theorem cancelCycle_cases {i k : Nat} {c : Cycle} (h : (s.cancelCycle i).cycles[k]? = some c) :
    ∃ b, s.cycles[k]? = some b ∧ c.place = b.place ∧ c.stage = b.stage := by
  rw [getElem?_cancelCycle] at h
  split at h
  · obtain ⟨b, hb, rfl⟩ := Option.map_eq_some_iff.1 h
    exact ⟨b, hb, rfl, rfl⟩
  · exact ⟨c, h, rfl, rfl⟩

theorem getElem?_startCycle (place k : Nat) :
    (s.startCycle place).cycles[k]?
      = if k = s.cycles.size then some { place := place } else s.cycles[k]? :=
  Array.getElem?_push

theorem startCycle_cases {place k : Nat} {c : Cycle}
    (h : (s.startCycle place).cycles[k]? = some c) :
    s.cycles[k]? = some c ∨ k = s.cycles.size ∧ c = { place := place } := by
  rw [getElem?_startCycle] at h
  split at h
  · cases h
    exact .inr ⟨‹_›, rfl⟩
  · exact .inl h

theorem getElem?_startCycle_size (place : Nat) :
    (s.startCycle place).cycles[s.cycles.size]? = some { place := place } := by
  rw [getElem?_startCycle, if_pos rfl]

theorem getElem?_setRestart (j k : Nat) (stage : RestartStage) :
    (s.setRestart j stage).restarts[k]?
      = if j = k then (s.restarts[k]?).map fun r ↦ { r with stage := stage }
        else s.restarts[k]? :=
  Array.getElem?_modify

theorem setRestart_cases {j k : Nat} {stage : RestartStage} {r : Restart}
    (h : (s.setRestart j stage).restarts[k]? = some r) :
    (k ≠ j ∧ s.restarts[k]? = some r) ∨
      k = j ∧ ∃ b, s.restarts[j]? = some b ∧ r = { b with stage := stage } := by
  rw [getElem?_setRestart] at h
  split at h
  · rename_i hk
    subst hk
    obtain ⟨b, hb, rfl⟩ := Option.map_eq_some_iff.1 h
    exact .inr ⟨rfl, b, hb, rfl⟩
  · exact .inl ⟨Ne.symm ‹_›, h⟩

theorem getElem?_setRestart_of_ne {j k : Nat} (stage : RestartStage) (h : k ≠ j) :
    (s.setRestart j stage).restarts[k]? = s.restarts[k]? := by
  rw [getElem?_setRestart, if_neg h.symm]

theorem getElem?_setRestart_self {j : Nat} {r : Restart} (stage : RestartStage)
    (h : s.restarts[j]? = some r) :
    (s.setRestart j stage).restarts[j]? = some { r with stage := stage } := by
  rw [getElem?_setRestart, if_pos rfl, h]
  rfl

theorem getElem?_endRestart_self {j : Nat} {r : Restart} (h : s.restarts[j]? = some r) :
    (s.endRestart j).restarts[j]? = some { r with stage := .finished } :=
  getElem?_setRestart_self .finished h

theorem getElem?_startRestart (place k : Nat) (delay : Span) :
    (s.startRestart place delay).restarts[k]?
      = if k = s.restarts.size then some ⟨place, .fresh delay⟩ else s.restarts[k]? :=
  Array.getElem?_push

theorem startRestart_cases {place k : Nat} {delay : Span} {r : Restart}
    (h : (s.startRestart place delay).restarts[k]? = some r) :
    s.restarts[k]? = some r ∨ k = s.restarts.size ∧ r = ⟨place, .fresh delay⟩ := by
  rw [getElem?_startRestart] at h
  split at h
  · cases h
    exact .inr ⟨‹_›, rfl⟩
  · exact .inl h

theorem getElem?_startRestart_of_some {place k : Nat} {delay : Span} {r : Restart}
    (h : s.restarts[k]? = some r) : (s.startRestart place delay).restarts[k]? = some r := by
  obtain ⟨hk, -⟩ := Array.getElem?_eq_some_iff.1 h
  rw [getElem?_startRestart, if_neg (Nat.ne_of_lt hk), h]

theorem getElem?_setConfirmation (i k : Nat) (stage : ConfirmationStage) :
    (s.setConfirmation i stage).confirmations[k]?
      = if i = k then (s.confirmations[k]?).map fun c ↦ { c with stage := stage }
        else s.confirmations[k]? :=
  Array.getElem?_modify

theorem getElem?_startConfirmation (place k : Nat) :
    (s.startConfirmation place).confirmations[k]?
      = if k = s.confirmations.size then some { place := place } else s.confirmations[k]? :=
  Array.getElem?_push

/-! ### Cycles that are over -/

theorem cycleIsOver_iff {i : Nat} :
    s.cycleIsOver i = true ↔ ∀ c, s.cycles[i]? = some c → c.stage = .finished := by
  unfold cycleIsOver
  cases s.cycles[i]? <;> simp

theorem cycleIsOver_iff_of_some {i : Nat} {c : Cycle} (hc : s.cycles[i]? = some c) :
    s.cycleIsOver i = true ↔ c.stage = .finished := by
  rw [cycleIsOver, hc]
  exact decide_eq_true_iff

theorem cycleIsOver_eq_false {i : Nat} {c : Cycle} (hc : s.cycles[i]? = some c)
    (going : c.stage ≠ .finished) : s.cycleIsOver i = false :=
  Bool.eq_false_iff.2 fun gone ↦ going ((cycleIsOver_iff_of_some hc).1 gone)

theorem cycleIsOver_of_cycles (h : t.cycles = s.cycles) (i : Nat) :
    t.cycleIsOver i = s.cycleIsOver i := by
  rw [cycleIsOver, h, cycleIsOver]

/-- Restart `j` starts a cycle of the resource in place `p` when it goes on: its moment has come and
the resource has no current cycle, or the cycle that it waited for is over. -/
inductive IsAboutToStart (j p : Nat) (s : State) : Prop where
  | due {stage : RestartStage} (hr : s.restarts[j]? = some ⟨p, stage⟩)
      (due : stage.isDue s.now = true) (here : s.isRequested = false)
      (going : s.stopping = false) (free : s.run? p = none)
  | joined {c : Nat} (hr : s.restarts[j]? = some ⟨p, .joining c⟩)
      (gone : s.cycleIsOver c = true) (going : s.stopping = false)

theorem IsAboutToStart.going {j p : Nat} (h : s.IsAboutToStart j p) : s.stopping = false := by
  cases h with
  | due hr due here going free => exact going
  | joined hr gone going => exact going

theorem IsAboutToStart.restart {j p : Nat} (h : s.IsAboutToStart j p) :
    ∃ stage, s.restarts[j]? = some ⟨p, stage⟩ := by
  cases h with
  | due hr due here going free => exact ⟨_, hr⟩
  | joined hr gone going => exact ⟨_, hr⟩

/-! ### Marks of a status -/

theorem status_of_mark {place : Nat} {m : Mark} {target : Status} {c : Lifecycle}
    (ht : m.target? = some target) (h : s.mark place m = .ok t)
    (hc : t.lifecycle? place = some c) : c.status = target := by
  rcases mark_cases h with ⟨nobody, rfl⟩ | ⟨l, l', published, hl, hm, rfl⟩
  · rw [nobody] at hc
    cases hc
  · obtain ⟨hlt, -⟩ := Array.getElem?_eq_some_iff.1 hl
    rw [publishAll_eq] at hc
    unfold lifecycle? at hc
    dsimp only [Ensemble.publish] at hc
    rw [Array.getElem?_setIfInBounds, if_pos rfl, if_pos hlt] at hc
    cases hc
    rcases Lifecycle.mark_eq_ok hm with ⟨none, -⟩ | ⟨_, some, moves⟩
    · rw [ht] at none
      cases none
    · rw [ht] at some
      cases some
      exact moves.status

theorem not_allows_of_mark {place : Nat} {m : Mark} {e : IllegalMove}
    (h : s.mark place m = .error e) :
    ∃ c target, s.lifecycle? place = some c ∧ m.target? = some target ∧
      c.status.allows target = false := by
  unfold mark Ensemble.mark at h
  cases hc : s.ensemble.members[place]? with
  | none => rw [hc] at h; cases h
  | some c =>
    rw [hc] at h
    dsimp only at h
    cases hm : c.mark m with
    | ok r => rw [hm] at h; cases h
    | error e' =>
      obtain ⟨target, ht, illegal⟩ := Lifecycle.mark_eq_error_iff.1 ⟨e', hm⟩
      exact ⟨c, target, hc, ht, illegal⟩

/-- A mark of a status is refused only to those that it may not follow. -/
theorem illegal_of_mark {place : Nat} {m : Mark} {target : Status} {c : Lifecycle}
    {e : IllegalMove} (h : s.mark place m = .error e) (ht : m.target? = some target)
    (hc : s.lifecycle? place = some c) : c.status.allows target = false := by
  obtain ⟨d, next, hd, hn, illegal⟩ := not_allows_of_mark h
  cases hc.symm.trans hd
  cases ht.symm.trans hn
  exact illegal

/-! ### What is kept of the resources fits the setup -/

/-- There is one member and one lifecycle for each resource, under its name; every cycle and every
restart is of one of them, and the current cycle of a resource is one of its own. -/
structure Fits (S : Setup) (s : State) : Prop where
  size : s.members.size = S.posts.size
  names : ∀ p, (s.lifecycle? p).map (·.name) = (S.posts[p]?).map (·.name)
  cycles : ∀ (i : Nat) (c : Cycle), s.cycles[i]? = some c → c.place < S.posts.size
  restarts : ∀ (j : Nat) (r : Restart), s.restarts[j]? = some r → r.place < S.posts.size
  runs : ∀ p i, s.run? p = some i → ∃ c : Cycle, s.cycles[i]? = some c ∧ c.place = p

theorem names_of_mark {place : Nat} {m : Mark} (h : s.mark place m = .ok t) (p : Nat) :
    (t.lifecycle? p).map (·.name) = (s.lifecycle? p).map (·.name) := by
  rcases mark_cases h with ⟨-, rfl⟩ | ⟨c, c', published, hc, hm, rfl⟩
  · rfl
  · rw [publishAll_eq]
    have name := Lifecycle.name_of_mark hm
    unfold lifecycle? at hc ⊢
    dsimp only [Ensemble.publish]
    rw [Array.getElem?_setIfInBounds]
    split
    · rename_i hp
      subst hp
      obtain ⟨hlt, -⟩ := Array.getElem?_eq_some_iff.1 hc
      rw [if_pos hlt, hc]
      simp [name]
    · rfl

namespace Fits

theorem initial (S : Setup) (bus : Bus) (recorder : Option Recorder) (now : Nat) :
    (State.initial S bus recorder now).Fits S where
  size := by simp [State.initial]
  names p := by
    simp [State.initial, lifecycle?, Ensemble.ofNames, Setup.names, Lifecycle.new,
      Function.comp_def]
  cycles := nofun
  restarts := nofun
  runs p i hi := by
    simp only [run?, State.initial, Array.getElem?_replicate] at hi
    split at hi <;> cases hi

/-- A lifecycle's name is the name of the resource in its place. -/
theorem exists_post (h : s.Fits S) {p : Nat} {c : Lifecycle} (hc : s.lifecycle? p = some c) :
    ∃ post, S.posts[p]? = some post ∧ post.name = c.name := by
  have names := h.names p
  rw [hc] at names
  exact Option.map_eq_some_iff.1 names.symm

theorem place?_name (h : s.Fits S) (distinct : S.names.Nodup) {p : Nat} {c : Lifecycle}
    (hc : s.lifecycle? p = some c) : S.place? c.name = some p := by
  obtain ⟨post, hp, hn⟩ := h.exists_post hc
  rw [← hn]
  exact Setup.place?_name distinct hp

end Fits

end State

end Supervision
