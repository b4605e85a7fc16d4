import Supervision.Proofs.Supervisor.Custody
import Supervision.Proofs.Supervisor.Entries
import Supervision.Proofs.Supervisor.Schedule

/-!
# Restarts are paced

A cycle with which no run began is paid for: a restart has started it, and no other cycle; a watcher
has told of that restart, and of no other in the same place of the chronicle; and the restart has
slept over the delay that was told. From where a restart stands one can see what of the delay it has
behind it (`RestartStage.IsOnTime`), so all of this is kept by every change, whoever goes on
(`Change.isPaced`). The sleep is as long as the delay unless its end lies beyond the clock or its last
tick (`Span.FitsTimer`); then it is cut short, and so is the pace.

Once no cycle may be started any more, none is: a restart looks before it starts one. Only the host
does not look, at the beginning of another run (`Step.starts_nothing`).

* `State.IsPaced.schedule`, `State.IsPaced.start` — a restart is scheduled, and starts a cycle.
* `restarts_are_paced` — both, over whole runs.
-/

namespace Supervision

/-! ### Where a restart stands in its delay -/

/-- A restart that was told of at some moment, with a delay, is not early where it stands. -/
def RestartStage.IsOnTime (told : Nat) (delay : Span) (now : Nat) : RestartStage → Prop
  | .fresh d => d = delay ∧ told ≤ now
  | .sleeping wake => delay.wakeFrom told ≤ wake
  | .joining _ => delay.wakeFrom told ≤ now
  | .finished => True

namespace RestartStage.IsOnTime

variable {told now now' : Nat} {delay : Span} {stage : RestartStage}

theorem mono (h : stage.IsOnTime told delay now) (later : now ≤ now') :
    stage.IsOnTime told delay now' := by
  cases stage with
  | fresh d => exact ⟨h.1, Nat.le_trans h.2 later⟩
  | sleeping wake => exact h
  | joining c => exact Nat.le_trans h later
  | finished => trivial

/-- When its moment has come, the sleep is over. -/
theorem of_isDue (h : stage.IsOnTime told delay now) (due : stage.isDue now = true) :
    delay.wakeFrom told ≤ now := by
  cases stage with
  | fresh d =>
    obtain ⟨rfl, early⟩ := h
    exact Nat.le_trans (Span.wakeFrom_le_of_millisUp_eq_zero (of_decide_eq_true due)) early
  | sleeping wake => exact Nat.le_trans h (of_decide_eq_true due)
  | joining c => cases due
  | finished => cases due

end RestartStage.IsOnTime

namespace State

variable {S : Setup} {p j : Nat} {opening : Nat → Prop} {f g : Nat → Nat} {s t : State}

/-! ### What a cycle is paid with -/

/-- The entry in position `k` tells that a restart of the resource in place `p` was scheduled, with
the delay that the settings gave after a roll of the dice. -/
def Schedules (S : Setup) (k p told : Nat) (delay : Span) (s : State) : Prop :=
  ∃ post attempt reason roll, S.posts[p]? = some post ∧
    S.settings.backoff.delay (S.dice roll) attempt = .ok delay ∧
    s.chronicle[k]? = some ⟨told, .published (.scheduled post.name (attempt + 1) delay reason)⟩

/-- Cycle `i` was started, and not before a moment. -/
def StartsFrom (i moment : Nat) (s : State) : Prop :=
  (∃ x ∈ s.chronicle, x.what = .started (.cycle i)) ∧
    ∀ x ∈ s.chronicle, x.what = .started (.cycle i) → moment ≤ x.moment

/-- Every restart `j` was told of in position `f j`, each in its own, and is not early; and every
cycle `i`, but for the `opening` ones, was started by restart `g i`, which has started no other,
when the delay that was told had passed. -/
structure IsPaced (S : Setup) (opening : Nat → Prop) (f g : Nat → Nat) (s : State) : Prop where
  scheduled : ∀ (j : Nat) (r : Restart), s.restarts[j]? = some r → ∃ told delay,
    s.Schedules S (f j) r.place told delay ∧ r.stage.IsOnTime told delay s.now
  apart : ∀ j k, j < s.restarts.size → k < s.restarts.size → f j = f k → j = k
  paid : ∀ (i : Nat) (c : Cycle), ¬ opening i → s.cycles[i]? = some c →
    s.restarts[g i]? = some ⟨c.place, .finished⟩ ∧ ∃ told delay,
      s.Schedules S (f (g i)) c.place told delay ∧ s.StartsFrom i (delay.wakeFrom told)
  single : ∀ i k, ¬ opening i → i < s.cycles.size → ¬ opening k → k < s.cycles.size → g i = g k →
    i = k
  known : ∀ x ∈ s.chronicle, ∀ i, x.what = .started (.cycle i) → i < s.cycles.size

theorem Schedules.of_enters {P : Entry → Prop} {k told : Nat} {delay : Span}
    (h : s.Schedules S k p told delay) (entered : Enters P s t) :
    t.Schedules S k p told delay := by
  obtain ⟨post, attempt, reason, roll, hp, hd, hk⟩ := h
  exact ⟨post, attempt, reason, roll, hp, hd, entered.getElem? hk⟩

/-! ### What keeps the pace -/

/-- From one state to another, restarts move on in time, and no cycle is started but for the
`opening` ones. -/
structure Follows (opening : Nat → Prop) (s t : State) : Prop where
  size : t.restarts.size = s.restarts.size
  restarts : ∀ (j : Nat) (r : Restart), s.restarts[j]? = some r → ∃ r' : Restart,
    t.restarts[j]? = some r' ∧ r'.place = r.place ∧ (r.stage = .finished → r'.stage = .finished) ∧
    ∀ told delay, r.stage.IsOnTime told delay s.now → r'.stage.IsOnTime told delay t.now
  more : s.cycles.size ≤ t.cycles.size
  cycles : ∀ (i : Nat) (c' : Cycle), ¬ opening i → t.cycles[i]? = some c' →
    ∃ c : Cycle, s.cycles[i]? = some c ∧ c'.place = c.place
  entries : Enters (fun x ↦ ∀ i, x.what = .started (.cycle i) → opening i ∧ i < t.cycles.size) s t

theorem IsPaced.follow (h : IsPaced S opening f g s) (w : Follows opening s t) :
    IsPaced S opening f g t where
  scheduled j r' hr' := by
    obtain ⟨hj, -⟩ := Array.getElem?_eq_some_iff.1 hr'
    have hr : s.restarts[j]? = some _ := Array.getElem?_eq_getElem (w.size ▸ hj)
    obtain ⟨r'', hr'', place, -, onTime⟩ := w.restarts j _ hr
    rw [hr'] at hr''
    cases hr''
    obtain ⟨told, delay, schedules, early⟩ := h.scheduled j _ hr
    exact ⟨told, delay, place ▸ schedules.of_enters w.entries, onTime told delay early⟩
  apart j k hj hk := h.apart j k (w.size ▸ hj) (w.size ▸ hk)
  paid i c' hi hc' := by
    obtain ⟨c, hc, place⟩ := w.cycles i c' hi hc'
    obtain ⟨hr, told, delay, schedules, ⟨x, hx, started⟩, late⟩ := h.paid i c hi hc
    obtain ⟨r', hr', place', isOver, -⟩ := w.restarts _ _ hr
    refine ⟨?_, told, delay, place ▸ schedules.of_enters w.entries,
      ⟨x, w.entries.mem_of_mem hx, started⟩, fun y hy started' ↦ ?_⟩
    · rw [hr']
      obtain ⟨q, stage⟩ := r'
      cases place'
      cases isOver rfl
      rw [place]
    · rcases w.entries.mem hy with old | new
      · exact late y old started'
      · exact absurd (new i started').1 hi
  single i k hi hi' hk hk' := by
    have old : ∀ {i : Nat}, ¬ opening i → i < t.cycles.size → i < s.cycles.size := by
      intro i hi hlt
      obtain ⟨c, hc, -⟩ := w.cycles i _ hi (Array.getElem?_eq_getElem hlt)
      exact (Array.getElem?_eq_some_iff.1 hc).1
    exact h.single i k hi (old hi hi') hk (old hk hk')
  known x hx i started := by
    rcases w.entries.mem hx with old | new
    · exact Nat.lt_of_lt_of_le (h.known x old i started) w.more
    · exact (new i started).2

/-- A numbering in which no two share a number stays so when the next one gets a new number. -/
theorem eq_of_extended {P : Nat → Prop} {f : Nat → Nat} {n v : Nat}
    (one : ∀ j k, P j → j < n → P k → k < n → f j = f k → j = k)
    (new : ∀ j, P j → j < n → f j ≠ v) {j k : Nat} (hj : P j) (j_lt : j < n + 1) (hk : P k)
    (k_lt : k < n + 1) (same : (if j = n then v else f j) = if k = n then v else f k) : j = k := by
  split at same <;> split at same
  · omega
  · exact absurd same.symm (new k hk (by omega))
  · exact absurd same (new j hj (by omega))
  · exact one j k hj (by omega) hk (by omega) same

/-- **A restart is scheduled.** -/
theorem IsPaced.schedule (h : IsPaced S opening f g s) {post : Post} {attempt roll : Nat}
    {delay : Span} {reason : String} (hp : S.posts[p]? = some post)
    (hd : S.settings.backoff.delay (S.dice roll) attempt = .ok delay)
    (restarts : t.restarts = s.restarts.push ⟨p, .fresh delay⟩) (cycles : t.cycles = s.cycles)
    (now : t.now = s.now)
    (chronicle : t.chronicle =
      (s.chronicle.push ⟨s.now, .published (.scheduled post.name (attempt + 1) delay reason)⟩).push
        ⟨s.now, .started (.restart s.restarts.size)⟩) :
    IsPaced S opening (fun j ↦ if j = s.restarts.size then s.chronicle.size else f j) g t := by
  have entered : Enters (fun x ↦ ∀ i, x.what ≠ .started (.cycle i)) s t :=
    .of_push_push chronicle (by simp) (by simp)
  have known : ∀ {j r}, s.restarts[j]? = some r → j ≠ s.restarts.size := by
    intro j r hr
    obtain ⟨hj, -⟩ := Array.getElem?_eq_some_iff.1 hr
    exact Nat.ne_of_lt hj
  have position : ∀ {j}, j < s.restarts.size → f j < s.chronicle.size := by
    intro j hj
    obtain ⟨told, delay, ⟨post, attempt, reason, roll, -, -, hk⟩, -⟩ :=
      h.scheduled j _ (Array.getElem?_eq_getElem hj)
    exact (Array.getElem?_eq_some_iff.1 hk).1
  refine ⟨fun j r hr ↦ ?_, fun j k hj hk same ↦ ?_, fun i c hi hc ↦ ?_, ?_, fun x hx i started ↦ ?_⟩
  · rw [restarts, Array.getElem?_push] at hr
    split at hr
    · rename_i last
      cases hr
      refine ⟨s.now, delay, ⟨post, attempt, reason, roll, hp, hd, ?_⟩, rfl, Nat.le_of_eq now.symm⟩
      have earlier : s.chronicle.size ≠ (s.chronicle.push
          ⟨s.now, .published (.scheduled post.name (attempt + 1) delay reason)⟩).size := by
        rw [Array.size_push]
        omega
      rw [if_pos last, chronicle, Array.getElem?_push, if_neg earlier, Array.getElem?_push_size]
    · obtain ⟨told, d, schedules, early⟩ := h.scheduled j r hr
      refine ⟨told, d, ?_, now ▸ early⟩
      rw [if_neg (known hr)]
      exact schedules.of_enters entered
  · -- Positions of old restarts lie before the end of the chronicle, where the new one is told of.
    rw [restarts, Array.size_push] at hj hk
    exact eq_of_extended (P := fun _ ↦ True) (fun j k _ hj _ hk ↦ h.apart j k hj hk)
      (fun j _ hj ↦ Nat.ne_of_lt (position hj)) trivial hj trivial hk same
  · rw [cycles] at hc
    obtain ⟨hr, told, d, schedules, ⟨x, hx, started⟩, late⟩ := h.paid i c hi hc
    refine ⟨?_, told, d, ?_, ⟨x, entered.mem_of_mem hx, started⟩, fun y hy started' ↦ ?_⟩
    · rw [restarts, Array.getElem?_push, if_neg (known hr), hr]
    · rw [if_neg (known hr)]
      exact schedules.of_enters entered
    · rcases entered.mem hy with old | new
      · exact late y old started'
      · exact absurd started' (new i)
  · rw [cycles]
    exact h.single
  · rw [cycles]
    rcases entered.mem hx with old | new
    · exact h.known x old i started
    · exact absurd started (new i)

/-- **A restart starts a cycle**, once, and ends. -/
theorem IsPaced.start (h : IsPaced S opening f g s) {stage : RestartStage}
    (hr : s.restarts[j]? = some ⟨p, stage⟩) (going : stage ≠ .finished)
    (due : ∀ told delay, stage.IsOnTime told delay s.now → delay.wakeFrom told ≤ s.now)
    (restarts : t.restarts = (s.setRestart j .finished).restarts)
    (cycles : t.cycles = s.cycles.push { place := p })
    (chronicle : t.chronicle = (s.chronicle.push ⟨s.now, .started (.cycle s.cycles.size)⟩).push
      ⟨s.now, .ended (.restart j)⟩) (now : t.now = s.now) :
    IsPaced S opening f (fun i ↦ if i = s.cycles.size then j else g i) t := by
  have entered : Enters (fun x ↦ ∀ i, x.what = .started (.cycle i) →
      x.moment = s.now ∧ i = s.cycles.size) s t := by
    refine .of_push_push chronicle (fun i started ↦ ?_) (by simp)
    cases started
    exact ⟨rfl, rfl⟩
  have ended : t.restarts[j]? = some ⟨p, .finished⟩ := by
    rw [restarts, getElem?_setRestart_self _ hr]
  refine ⟨fun k r hk ↦ ?_, fun k k' hk hk' ↦ ?_, fun i c hi hc ↦ ?_,
    fun i k hi hi' hk hk' same ↦ ?_, fun x hx i started ↦ ?_⟩
  · rw [restarts] at hk
    rcases setRestart_cases hk with ⟨-, hb⟩ | ⟨rfl, b, hb, rfl⟩
    · obtain ⟨told, delay, schedules, early⟩ := h.scheduled k r hb
      exact ⟨told, delay, schedules.of_enters entered, now ▸ early⟩
    · obtain ⟨told, delay, schedules, -⟩ := h.scheduled k b hb
      exact ⟨told, delay, schedules.of_enters entered, trivial⟩
  · have size : t.restarts.size = s.restarts.size := by
      rw [restarts]
      exact Array.size_modify
    exact h.apart k k' (size ▸ hk) (size ▸ hk')
  · rw [cycles, Array.getElem?_push] at hc
    split at hc
    · rename_i last
      cases hc
      obtain ⟨told, delay, schedules, early⟩ := h.scheduled j _ hr
      rw [if_pos last]
      refine ⟨ended, told, delay, schedules.of_enters entered,
        ⟨⟨s.now, .started (.cycle i)⟩, ?_, rfl⟩, fun y hy started ↦ ?_⟩
      · rw [chronicle, last]
        simp
      · rcases entered.mem hy with old | new
        · exact absurd (h.known y old i started) (by omega)
        · rw [(new i started).1]
          exact due told delay early
    · rename_i before
      obtain ⟨hg, told, delay, schedules, ⟨x, hx, started⟩, late⟩ := h.paid i c hi hc
      rw [if_neg before]
      refine ⟨?_, told, delay, schedules.of_enters entered, ⟨x, entered.mem_of_mem hx, started⟩,
        fun y hy started' ↦ ?_⟩
      · rw [restarts, getElem?_setRestart]
        split
        · rw [hg]
          rfl
        · exact hg
      · rcases entered.mem hy with old | new
        · exact late y old started'
        · exact absurd (new i started').2 before
  -- The restart that starts the new cycle has not ended before, as those of older cycles have.
  · have other : ∀ {i : Nat}, ¬ opening i → i < s.cycles.size → g i ≠ j := by
      intro i hi hlt same
      obtain ⟨hg, -⟩ := h.paid i _ hi (Array.getElem?_eq_getElem hlt)
      rw [same, hr] at hg
      cases hg
      exact going rfl
    rw [cycles, Array.size_push] at hi' hk'
    exact eq_of_extended h.single (fun i hi hlt ↦ other hi hlt) hi hi' hk hk' same
  · rw [cycles, Array.size_push]
    rcases entered.mem hx with old | new
    · exact Nat.lt_succ_of_lt (h.known x old i started)
    · rw [(new i started).2]
      exact Nat.lt_succ_self _

end State

/-! ### Every change keeps the pace -/

section Run

variable {S : Setup} {admits : Deed → Prop} {who : Option Task} {s s' : State}
  {opening : Nat → Prop}

/-- Who starts no cycle enters none as started. -/
theorem State.Enters.no_start {t : State} (h : State.Enters (s.IsEntryOf who) s t)
    (host : who ≠ some .host) (other : ∀ j, who ≠ some (.restart j)) :
    State.Enters (fun x ↦ ∀ i, x.what ≠ .started (.cycle i)) s t := by
  refine h.mono fun x hx i started ↦ ?_
  have may : (Happening.started (.cycle i)).IsBy who := started ▸ hx.2
  rcases may with may | ⟨j, may⟩
  · exact host may
  · exact other j may

/-- A restart ends, or waits for another moment. -/
theorem State.IsPaced.move {f g : Nat → Nat} {j p : Nat} {stage : RestartStage}
    (stage' : RestartStage) (h : s.IsPaced S opening f g) (hr : s.restarts[j]? = some ⟨p, stage⟩)
    (going : stage ≠ .finished)
    (onTime : ∀ told delay, stage.IsOnTime told delay s.now → stage'.IsOnTime told delay s.now)
    (restarts : s'.restarts = (s.setRestart j stage').restarts)
    (size : s'.cycles.size = s.cycles.size)
    (cycles : ∀ (i : Nat) (c' : Cycle), s'.cycles[i]? = some c' →
      ∃ c : Cycle, s.cycles[i]? = some c ∧ c'.place = c.place)
    (entries : State.Enters (fun x ↦ ∀ i, x.what ≠ .started (.cycle i)) s s')
    (now : s'.now = s.now) : s'.IsPaced S opening f g := by
  refine h.follow ⟨?_, fun k r hk ↦ ?_, Nat.le_of_eq size.symm, fun i c' _ hc' ↦ cycles i c' hc',
    entries.mono fun x hx i started ↦ absurd started (hx i)⟩
  · rw [restarts]
    exact Array.size_modify
  · rw [restarts, State.getElem?_setRestart, now]
    split
    · rename_i same
      subst same
      rw [hr] at hk
      cases hk
      rw [hr]
      exact ⟨_, rfl, rfl, fun isOver ↦ absurd isOver going, onTime⟩
    · exact ⟨r, hk, rfl, id, fun _ _ early ↦ early⟩

/-- What touches no restart and starts no cycle keeps the pace. -/
theorem State.IsPaced.idle {f g : Nat → Nat} (h : s.IsPaced S opening f g)
    (restarts : s'.restarts = s.restarts) (size : s'.cycles.size = s.cycles.size)
    (cycles : ∀ (i : Nat) (c' : Cycle), s'.cycles[i]? = some c' →
      ∃ c : Cycle, s.cycles[i]? = some c ∧ c'.place = c.place)
    (entries : State.Enters (fun x ↦ ∀ i, x.what ≠ .started (.cycle i)) s s')
    (later : s.now ≤ s'.now) : s'.IsPaced S opening f g :=
  h.follow ⟨by rw [restarts], fun j r hr ↦ ⟨r, by rw [restarts, hr], rfl, id,
      fun _ _ onTime ↦ onTime.mono later⟩, Nat.le_of_eq size.symm, fun i c' _ hc' ↦ cycles i c' hc',
    entries.mono fun x hx i started ↦ absurd started (hx i)⟩

/-- What a watcher makes of a failure keeps the pace: a restart is told of when it is put on the
calendar. -/
theorem State.IsPaced.onFailed {f g : Nat → Nat} (h : s.IsPaced S opening f g) (i : Nat)
    (resource reason : String) :
    ∃ f, (s.onFailed S resource reason).state.IsPaced S opening f g := by
  have entered := (State.enters_onFailed (S := S) i resource reason s).no_start nofun nofun
  have known := State.heed_onFailed S resource reason s
  generalize s.onFailed S resource reason = r at known entered ⊢
  cases known with
  | @restart place delay hp here new free left hd =>
    obtain ⟨post, hpost, name⟩ := Setup.exists_post_of_place? hp
    exact ⟨_, h.schedule hpost hd rfl rfl rfl (by rw [name]; rfl)⟩
  | exhausted hp here new spent =>
    refine ⟨f, h.idle ?_ ?_ ?_ entered ?_⟩ <;> dsimp only <;> rw [State.request_frame]
    · rfl
    · rfl
    · exact fun i c hc ↦ ⟨c, hc, rfl⟩
    · exact Nat.le_refl _
  | _ => exact ⟨f, h.idle rfl rfl (fun i c hc ↦ ⟨c, hc, rfl⟩) entered (Nat.le_refl _)⟩

/-- The host starts a cycle with which a run begins. -/
theorem State.IsPaced.spawn {f g : Nat → Nat} {place : Nat} (h : s.IsPaced S opening f g)
    (opens : opening s.cycles.size) : (s.startCycle place).IsPaced S opening f g := by
  have size : (s.startCycle place).cycles.size = s.cycles.size + 1 := Array.size_push _
  refine h.follow ⟨rfl, fun j r hr ↦ ⟨r, hr, rfl, id, fun _ _ onTime ↦ onTime⟩,
    size ▸ Nat.le_succ _, fun i c' hi hc' ↦ ?_, .enter (.of_eq rfl) fun i started ↦ ?_⟩
  · rcases State.startCycle_cases hc' with old | ⟨rfl, -⟩
    · exact ⟨c', old, rfl⟩
    · exact absurd opens hi
  · cases started
    exact ⟨opens, size ▸ Nat.lt_succ_self _⟩

/-- A restart that is due starts a cycle if none goes on. -/
theorem State.IsPaced.release {f g : Nat → Nat} {j place : Nat} {stage : RestartStage}
    (h : s.IsPaced S opening f g) (hr : s.restarts[j]? = some ⟨place, stage⟩)
    (waits : stage.isOnCalendar = true)
    (due : s.isRequested = true ∨ stage.isDue s.now = true) :
    ∃ g, (s.release j place).IsPaced S opening f g := by
  have going : stage ≠ .finished := by
    rintro rfl
    cases waits
  have released := State.release_release j place s
  generalize s.release j place = t at released ⊢
  cases released with
  | abandoned ha =>
    exact ⟨g, h.move .finished hr going (fun _ _ _ ↦ trivial) rfl rfl
      (fun i c hc ↦ ⟨c, hc, rfl⟩) (.enter (.of_eq rfl) nofun) rfl⟩
  | @joins m c here hm hc =>
    have moment := due.resolve_left (Bool.eq_false_iff.1 here)
    refine ⟨g, h.move (.joining c) hr going (fun _ _ onTime ↦ onTime.of_isDue moment) rfl
      Array.size_modify (fun i c' hc' ↦ ?_) (.enter (.of_eq rfl) nofun) rfl⟩
    obtain ⟨b, hb, same, -⟩ := State.cancelCycle_cases (s := s) hc'
    exact ⟨b, hb, same⟩
  | starts here open' hc =>
    have moment := due.resolve_left (Bool.eq_false_iff.1 here)
    exact ⟨_, h.start hr going (fun _ _ onTime ↦ onTime.of_isDue moment) rfl rfl rfl rfl⟩

/-- A restart whose cycle has ended starts the next one, or nothing when a stop has begun. -/
theorem State.IsPaced.respawn {f g : Nat → Nat} {j place c : Nat} (h : s.IsPaced S opening f g)
    (hr : s.restarts[j]? = some ⟨place, .joining c⟩) :
    ∃ g, (s.respawn j place).IsPaced S opening f g := by
  unfold State.respawn
  split
  · exact ⟨g, h.move .finished hr nofun (fun _ _ _ ↦ trivial) rfl rfl
      (fun i c hc ↦ ⟨c, hc, rfl⟩) (.enter (.of_eq rfl) nofun) rfl⟩
  · exact ⟨_, h.start hr nofun (fun _ _ onTime ↦ onTime) rfl rfl rfl rfl⟩

/-- **Whatever happens keeps the pace**, but for the cycles with which a run begins. -/
theorem Change.isPaced (h : Change S admits who s s')
    (opens : who = some .host → s.host = .fresh →
      ∀ i, s.cycles.size ≤ i → i < s'.cycles.size → opening i)
    (hp : ∃ f g, s.IsPaced S opening f g) :
    ∃ f g, s'.IsPaced S opening f g := by
  have before : ∀ (i : Nat) (c : Cycle), s'.cycles[i]? = some c → i < s.cycles.size →
      ∃ b : Cycle, s.cycles[i]? = some b ∧ c.place = b.place := by
    intro i c hc old
    rcases h.cycle_before hc with kept | ⟨last, -⟩
    · exact kept
    · omega
  have later := h.le_now
  obtain ⟨f, g, hp⟩ := hp
  have idle : s'.restarts = s.restarts → s'.cycles.size = s.cycles.size →
      State.Enters (fun x ↦ ∀ i, x.what ≠ .started (.cycle i)) s s' →
      ∃ f g, s'.IsPaced S opening f g := by
    intro restarts size entries
    refine ⟨f, g, hp.idle restarts size (fun i c' hc' ↦ ?_) entries later⟩
    exact before i c' hc' (size ▸ (Array.getElem?_eq_some_iff.1 hc').1)
  cases h with
  | note what own =>
    refine idle rfl rfl (.enter (.of_eq rfl) fun i started ↦ ?_)
    have none : (Happening.started (.cycle i)).IsNoteOf who := started ▸ own
    exact none
  | report e report own => exact idle rfl rfl (.publish (.of_eq rfl) nofun)
  | publish e he => exact idle rfl rfl (.publish (.of_eq rfl) nofun)
  | request c =>
    have entered : State.Enters (s.IsEntryOf none) s (s.request c).2 := State.enters_request c s
    exact idle (by rw [State.request_frame]) (by rw [State.request_frame])
      (entered.no_start nofun nofun)
  | mark hm own =>
    have entered : State.Enters (s.IsEntryOf none) s s' := State.enters_mark hm
    exact idle (by rw [State.mark_frame hm]) (by rw [State.mark_frame hm])
      (entered.no_start nofun nofun)
  | @begin i s t c hc fresh hm =>
    have entered : State.Enters (s.IsEntryOf none) s t := State.enters_mark hm
    refine idle (by rw [State.mark_frame hm]; rfl) ?_
      ((entered.no_start nofun nofun).trans (.of_eq rfl))
    rw [State.mark_frame hm]
    exact Array.size_modify
  | turnAway hc fresh hm => exact idle rfl Array.size_modify (.of_eq rfl)
  | move stage hw hs => exact idle rfl Array.size_modify (.of_eq rfl)
  | abort i hs => exact idle rfl Array.size_modify (.enter (.of_eq rfl) nofun)
  | cancel i => exact idle rfl Array.size_modify (.enter (.of_eq rfl) nofun)
  | @spawn s place fresh hpl =>
    have size : (s.startCycle place).cycles.size = s.cycles.size + 1 := Array.size_push _
    exact ⟨f, g, hp.spawn (opens rfl fresh _ (Nat.le_refl _) (size ▸ Nat.lt_succ_self _))⟩
  | @heed i s resource reason =>
    obtain ⟨f', hp'⟩ := hp.onFailed i resource reason
    exact ⟨f', g, hp'⟩
  | @await i s place =>
    exact idle rfl rfl (.enter (.of_eq rfl) nofun)
  | @sleep j place s delay hr =>
    exact ⟨f, g, hp.move (.sleeping _) hr nofun
      (fun told d ⟨same, early⟩ ↦ same ▸ Span.wakeFrom_mono early) rfl rfl
      (fun i c hc ↦ ⟨c, hc, rfl⟩) (.of_eq rfl) rfl⟩
  | release hr waits due =>
    obtain ⟨g', hp'⟩ := hp.release hr waits due
    exact ⟨f, g', hp'⟩
  | respawn hr gone =>
    obtain ⟨g', hp'⟩ := hp.respawn hr
    exact ⟨f, g', hp'⟩
  | @confirm i s w c hc hr hb =>
    exact idle (by rw [State.confirm_frame]) (by rw [State.confirm_frame])
      ((State.enters_confirm i c.place s).no_start nofun nofun)
  | _ => exact idle rfl rfl (.of_eq rfl)

/-- The host asks for no run. -/
theorem Change.fresh_before (h : Change S admits (some .host) s s') (fresh : s'.host = .fresh) :
    s.host = .fresh := by
  rcases h.host with same | ⟨-, begun, -⟩ | ⟨nobody, -⟩
  · exact same.symm.trans fresh
  · exact absurd fresh begun
  · cases nobody

theorem Changes.isPaced (h : Changes S admits who s s')
    (opens : who = some .host → s.host = .fresh →
      ∀ i, s.cycles.size ≤ i → i < s'.cycles.size → opening i)
    (hp : ∃ f g, s.IsPaced S opening f g) : ∃ f g, s'.IsPaced S opening f g := by
  -- From the front: what the rest of the chain starts is among what the chain starts.
  induction h using Relation.ReflTransGen.head_induction_on with
  | refl => exact hp
  | head one rest ih =>
    refine ih (fun host fresh i hi hlt ↦ ?_) (one.isPaced (fun host fresh i hi hlt ↦ ?_) hp)
    · subst host
      exact opens rfl (one.fresh_before fresh) i (Nat.le_trans one.le_cycles hi) hlt
    · exact opens host fresh i hi (Nat.lt_of_lt_of_le hlt (Changes.le_cycles rest))

theorem Step.isPaced (h : Step S admits s s') (ho : s.IsOrderly)
    (opens : s.host = .fresh → s' = s.stepHost S →
      ∀ i, s.cycles.size ≤ i → i < s'.cycles.size → opening i)
    (hp : ∃ f g, s.IsPaced S opening f g) : ∃ f g, s'.IsPaced S opening f g := by
  rcases h.turn_or_changes ho (· = .host) with ⟨_, rfl, rfl⟩ | ⟨who, other, hc⟩
  · have hc : Changes S admits (some .host) s (s.step S .host) := State.changes_step .host s ho
    exact hc.isPaced (fun _ fresh ↦ opens fresh rfl) hp
  · exact hc.isPaced (fun host ↦ absurd host (other _ rfl)) hp

/-! ### Nothing is started any more -/

/-- Once no cycle may be started any more, only the host starts one, at the beginning of a run. -/
theorem Change.starts_nothing (h : Change S admits who s s') (closed : s.stopping = true) :
    s'.cycles.size = s.cycles.size ∨ who = some .host ∧ s.host = .fresh := by
  rcases h.cycles with e | ⟨place, e, -, ⟨host, fresh, -⟩ | ⟨j, -, starts⟩⟩ | ⟨i, stage, e, -⟩ |
    ⟨i, e⟩
  · exact .inl (by rw [e])
  · exact .inr ⟨host, fresh⟩
  · have going := starts.going
    rw [closed] at going
    cases going
  · exact .inl (by rw [e]; exact Array.size_modify)
  · exact .inl (by rw [e]; exact Array.size_modify)

theorem Step.starts_nothing (h : Step S admits s s') (ho : s.IsOrderly)
    (closed : s.stopping = true) :
    s'.cycles.size = s.cycles.size ∨ s.host = .fresh ∧ s' = s.stepHost S := by
  have chain : ∀ {who}, (who = some .host → s.host ≠ .fresh) → Changes S admits who s s' →
      s'.cycles.size = s.cycles.size := by
    intro who begun hc
    refine (hc.keeps (P := fun t ↦ t.stopping = true ∧ (who = some .host → t.host ≠ .fresh) ∧
      t.cycles.size = s.cycles.size) (fun {t t'} _ ⟨shut, later, size⟩ one ↦ ?_) ho
      ⟨closed, begun, rfl⟩).2.2.2
    refine ⟨one.stopping_mono shut, fun host fresh ↦ ?_, ?_⟩
    · subst host
      exact later rfl (one.fresh_before fresh)
    · rcases one.starts_nothing shut with same | ⟨host, fresh⟩
      · exact same.trans size
      · exact absurd fresh (later host)
  rcases h.turn_or_changes ho (· = .host) with ⟨_, rfl, rfl⟩ | ⟨who, other, hc⟩
  · by_cases fresh : s.host = .fresh
    · exact .inr ⟨fresh, rfl⟩
    · exact .inl (chain (fun _ ↦ fresh) (State.changes_step .host s ho))
  · exact .inl (chain (fun host ↦ absurd host (other _ rfl)) hc)

/-! ### Whole runs -/

/-- On the way from one state to another, a run began with cycle `i`: the host started it in its
first step. -/
def State.OpensWith (S : Setup) (admits : Deed → Prop) (s₀ s : State) (i : Nat) : Prop :=
  ∃ t, Reaches S admits s₀ t ∧ t.host = .fresh ∧ Reaches S admits (t.stepHost S) s ∧
    t.cycles.size ≤ i ∧ i < (t.stepHost S).cycles.size

theorem State.OpensWith.step {s₀ : State} {i : Nat} (h : State.OpensWith S admits s₀ s i)
    (last : Step S admits s s') : State.OpensWith S admits s₀ s' i := by
  obtain ⟨t, before, fresh, after, started⟩ := h
  exact ⟨t, before, fresh, after.step last, started⟩

/-- What the host enters when it starts cycles. -/
theorem State.startCycles_eq (places : List Nat) (s : State) :
    (places.foldl (fun s place ↦ s.startCycle place) s).cycles.size
        = s.cycles.size + places.length ∧
      (places.foldl (fun s place ↦ s.startCycle place) s).chronicle = s.chronicle ++
        ((List.range places.length).map fun d ↦
          (⟨s.now, .started (.cycle (s.cycles.size + d))⟩ : Entry)).toArray := by
  induction places generalizing s with
  | nil => exact ⟨rfl, by simp⟩
  | cons place rest ih =>
    obtain ⟨size, chronicle⟩ := ih (s.startCycle place)
    have one : (s.startCycle place).cycles.size = s.cycles.size + 1 := Array.size_push _
    rw [List.foldl_cons, size, chronicle, one]
    refine ⟨by rw [List.length_cons]; omega, ?_⟩
    have entered : (s.startCycle place).chronicle
        = s.chronicle.push ⟨s.now, .started (.cycle s.cycles.size)⟩ := rfl
    have now : (s.startCycle place).now = s.now := rfl
    rw [entered, now, List.length_cons, List.range_succ_eq_map]
    refine Array.toList_inj.1 ?_
    simp [Nat.add_comm, Nat.add_left_comm, Function.comp_def]

theorem State.beginRun_entries (S : Setup) (s : State) :
    (s.beginRun S).cycles.size = s.cycles.size + S.posts.size ∧
      ∃ (before : Array Entry) (w : Nat), (s.beginRun S).chronicle =
        before.push ⟨s.now, .started (.watcher w)⟩ ++ ((List.range S.posts.size).map fun d ↦
          (⟨s.now, .started (.cycle (s.cycles.size + d))⟩ : Entry)).toArray := by
  unfold State.beginRun
  dsimp only
  rw [(State.startCycles_eq _ _).1, (State.startCycles_eq _ _).2, List.length_range]
  split <;> exact ⟨rfl, _, _, rfl⟩

/-- The cycles with which a run began stand in the chronicle right after its watcher. -/
theorem State.OpensWith.entry {s₀ : State} {i : Nat} (h : State.OpensWith S admits s₀ s i) :
    ∃ k d w x y, d < S.posts.size ∧ s.chronicle[k]? = some x ∧ x.what = .started (.watcher w) ∧
      s.chronicle[k + 1 + d]? = some y ∧ y.what = .started (.cycle i) := by
  obtain ⟨t, -, fresh, after, old, new⟩ := h
  have begins : t.stepHost S = t.beginRun S := by
    unfold State.stepHost
    rw [fresh]
  rw [begins] at new after
  obtain ⟨size, before, w, entries⟩ := State.beginRun_entries S t
  obtain ⟨d, rfl⟩ := Nat.exists_eq_add_of_le old
  have few : d < S.posts.size := by omega
  refine ⟨before.size, d, w, ⟨t.now, .started (.watcher w)⟩,
    ⟨t.now, .started (.cycle (t.cycles.size + d))⟩, few, after.grows.getElem? ?_, rfl,
    after.grows.getElem? ?_, rfl⟩
  · rw [entries, Array.getElem?_append_left (by simp), Array.getElem?_push_size]
  · rw [entries, Array.getElem?_append_right (by simp)]
    simp [few]

theorem State.IsPaced.weaken {f g : Nat → Nat} {fewer : Nat → Prop} (h : s.IsPaced S fewer f g)
    (more : ∀ i, fewer i → opening i) : s.IsPaced S opening f g where
  scheduled := h.scheduled
  apart := h.apart
  paid i c hi := h.paid i c fun few ↦ hi (more i few)
  single i k hi hi' hk := h.single i k (fun few ↦ hi (more i few)) hi' fun few ↦ hk (more k few)
  known := h.known

theorem State.isPaced_initial (S : Setup) (bus : Bus) (recorder : Option Recorder) (now : Nat)
    (opening : Nat → Prop) (f g : Nat → Nat) :
    (State.initial S bus recorder now).IsPaced S opening f g where
  scheduled := nofun
  apart j _ hj := absurd hj (Nat.not_lt_zero j)
  paid := nofun
  single i _ _ hi := absurd hi (Nat.not_lt_zero i)
  known x hx := absurd hx (Array.not_mem_empty x)

/-- **Every cycle with which no run began is paid for.** -/
theorem Reaches.isPaced {bus : Bus} {recorder : Option Recorder} {now : Nat}
    (run : Reaches S admits (State.initial S bus recorder now) s) :
    ∃ f g, s.IsPaced S (State.OpensWith S admits (State.initial S bus recorder now) s) f g := by
  generalize start : State.initial S bus recorder now = s₀ at run ⊢
  suffices s.IsOrderly ∧ ∃ f g, s.IsPaced S (State.OpensWith S admits s₀ s) f g from this.2
  induction run with
  | refl =>
    subst start
    exact ⟨State.isOrderly_initial S bus recorder now, id, id,
      State.isPaced_initial S bus recorder now _ _ _⟩
  | step before last ih =>
    obtain ⟨orderly, f, g, paced⟩ := ih
    refine ⟨last.isOrderly orderly, last.isPaced orderly (fun fresh host i hi hlt ↦ ?_)
      ⟨f, g, paced.weaken fun i opens ↦ opens.step last⟩⟩
    subst host
    exact ⟨_, before, fresh, .refl _, hi, hlt⟩

/-- Once no cycle may be started any more, every new cycle is one with which another run began. -/
theorem Reaches.opensWith (later : Reaches S admits s s') (ho : s.IsOrderly)
    (closed : s.stopping = true) {i : Nat} (new : s.cycles.size ≤ i) (hi : i < s'.cycles.size) :
    State.OpensWith S admits s s' i := by
  induction later with
  | refl => exact absurd hi (Nat.not_lt_of_le new)
  | @step t u before last ih =>
    obtain ⟨orderly, shut⟩ := before.keeps_changes (P := fun t ↦ t.stopping = true)
      (fun _ shut one ↦ one.stopping_mono shut) ho closed
    by_cases old : i < t.cycles.size
    · exact (ih old).step last
    · rcases last.starts_nothing orderly shut with same | ⟨fresh, rfl⟩
      · exact absurd (same ▸ hi) old
      · exact ⟨t, before, fresh, .refl _, Nat.le_of_not_lt old, hi⟩

/-- **Restarts are paced.** At every moment, every cycle with which no run began is paid with an
entry of the chronicle, each with its own: the entry tells that a restart of its resource was
scheduled, and the cycle was started when the sleep over the delay that it tells had ended, so when
the whole delay had passed unless that ends beyond the clock or its last tick. Once no cycle may be
started any more, restarts start none; every new cycle is one with which another run began, and
there is none as long as nobody asks for another run. -/
theorem restarts_are_paced {bus : Bus} {recorder : Option Recorder} {now : Nat}
    (run : Reaches S admits (State.initial S bus recorder now) s) :
    (∃ pay : Nat → Nat,
      (∀ (i : Nat) (c : Cycle), s.cycles[i]? = some c →
        ¬ State.OpensWith S admits (State.initial S bus recorder now) s i →
        ∃ told delay, s.Schedules S (pay i) c.place told delay ∧
          s.StartsFrom i (delay.wakeFrom told) ∧
          (delay.FitsTimer told → s.StartsFrom i (told + delay.millisUp))) ∧
      ∀ i k, i < s.cycles.size → k < s.cycles.size →
        ¬ State.OpensWith S admits (State.initial S bus recorder now) s i →
        ¬ State.OpensWith S admits (State.initial S bus recorder now) s k →
        pay i = pay k → i = k) ∧
    (s.stopping = true →
      (∀ s', Reaches S admits s s' → ∀ i, s.cycles.size ≤ i → i < s'.cycles.size →
        State.OpensWith S admits s s' i) ∧
      (s.host ≠ .fresh → ∀ s', Reaches S (fun d ↦ admits d ∧ d ≠ .call) s s' →
        s'.cycles.size = s.cycles.size)) := by
  have orderly := (run.keeps_changes (P := fun _ ↦ True) (fun _ _ _ ↦ trivial)
    (State.isOrderly_initial S bus recorder now) trivial).1
  obtain ⟨f, g, paced⟩ := run.isPaced
  refine ⟨⟨fun i ↦ f (g i), fun i c hc paidFor ↦ ?_, fun i k hi hk paidFor paidFor' same ↦ ?_⟩,
    fun closed ↦ ⟨fun s' later i new hi ↦ later.opensWith orderly closed new hi,
      fun begun s' later ↦ ?_⟩⟩
  · obtain ⟨-, told, delay, schedules, starts⟩ := paced.paid i c paidFor hc
    exact ⟨told, delay, schedules, starts, fun fits ↦ fits.wakeFrom_eq ▸ starts⟩
  · have started : ∀ {i}, i < s.cycles.size →
        ¬ State.OpensWith S admits (State.initial S bus recorder now) s i →
        g i < s.restarts.size := by
      intro i hi paidFor
      have hr := (paced.paid i _ paidFor (Array.getElem?_eq_getElem hi)).1
      exact (Array.getElem?_eq_some_iff.1 hr).1
    exact paced.single i k paidFor hi paidFor' hk
      (paced.apart _ _ (started hi paidFor) (started hk paidFor') same)
  · have idle := later.keeps (P := fun t ↦ t.IsOrderly ∧ t.stopping = true ∧ t.host ≠ .fresh ∧
        t.cycles.size = s.cycles.size)
      (fun {t t'} ⟨ordered, shut, absent, size⟩ last ↦ ?_) ⟨orderly, closed, begun, rfl⟩
    · exact idle.2.2.2
    obtain ⟨who, hc⟩ := last.changes ordered
    refine ⟨last.isOrderly ordered, (hc.keeps (P := fun u ↦ u.stopping = true)
      (fun _ shut one ↦ one.stopping_mono shut) ordered shut).2,
      last.hasBegun (fun again ↦ again.2 rfl) ordered absent, ?_⟩
    rcases last.starts_nothing ordered shut with same | ⟨fresh, -⟩
    · exact same.trans size
    · exact absurd fresh absent

end Run

/-! ### A resource that fails -/

/-- Its resource fails at once, each time, and is restarted after 60 milliseconds. -/
def Setup.failing : Setup :=
  { Setup.single fun _ ↦ { serve := [.mark (.failed (.plain "resource_failed" "lost"))] } with
    settings := { Settings.standard with
      backoff := { base := .ofMillis 60, multiplier := 1.0, max := .ofSecs 60, jitter := .none }
      grace := .ofMillis 100 } }

/-- Its first cycle fails and ends, and everybody else goes on as far as that is possible. -/
def Cue.setback : List Cue :=
  .turn .host :: Cue.failure ++ [.turn (.restart 0), .turn (.confirmation 0)] ++
    .replicate 2 (.turn (.cycle 0)) ++ .replicate 5 (.turn .relay)

/-- Somebody asks for the shutdown, and the run ends. -/
def Cue.farewell : List Cue :=
  [.deed (.request (.requested "done")), .turn .host, .turn (.watcher 0), .turn (.restart 0),
    .turn .host] ++ .replicate 4 (.turn .relay) ++ .replicate 2 (.turn .host)

namespace State

/-- The failing resource waits for its restart. -/
def failingWaits : State := (asked .failing).play .failing Cue.setback

/-- The failing resource was restarted. -/
def failingRestarted : State :=
  (failingWaits.passTo 60).play .failing (.replicate 2 (.turn (.restart 0)))

/-- The run of the failing resource is over before its restart. -/
def failingEnded : State := failingWaits.play .failing Cue.farewell

/-- The failing resource runs another time. -/
def failingAgain : State := failingEnded.play .failing [.deed .call, .turn .host]

theorem reaches_failingWaits {admits : Deed → Prop} (call : admits .call) :
    Reaches .failing admits (atRest .failing) failingWaits :=
  reaches_play (reaches_asked .failing call) (by decide +kernel)
    (by simp [Cue.setback, Cue.failure])

end State

/-- The second cycle of the failing resource is paid with the restart that was told of at the very
beginning, and was started 60 milliseconds later. -/
theorem failing_isPaced :
    ∃ k, State.failingRestarted.Schedules .failing k 0 0 (.ofMillis 60) ∧
      State.failingRestarted.StartsFrom 1 60 := by
  have run : Reaches .failing (· = .call) (State.atRest .failing) State.failingRestarted :=
    State.reaches_play (State.reaches_passTo (State.reaches_failingWaits rfl) (by decide +kernel))
      (by decide +kernel) (by simp)
  obtain ⟨⟨pay, paid, -⟩, -⟩ := restarts_are_paced run
  have second : State.failingRestarted.cycles[1]? = some { place := 0, stage := .fresh } := by
    decide +kernel
  have position : ∀ k < State.failingRestarted.chronicle.size,
      (State.failingRestarted.chronicle[k]?).map (·.what) = some (.started (.cycle 1)) →
        k = 24 := by
    decide +kernel
  have before : (State.failingRestarted.chronicle[23]?).map (·.what) = some (.cancelled 0) := by
    decide +kernel
  have later : ¬ State.OpensWith .failing (· = .call) (State.atRest .failing)
      State.failingRestarted 1 := by
    intro opens
    obtain ⟨k, d, w, x, y, few, hx, watches, hy, starts⟩ := opens.entry
    have alone : d = 0 := Nat.lt_one_iff.1 few
    subst alone
    obtain ⟨hk, -⟩ := Array.getElem?_eq_some_iff.1 hy
    have same := position _ hk (by rw [hy, Option.map_some, starts])
    have here : k = 23 := by omega
    rw [← here, hx, Option.map_some, watches] at before
    cases before
  have told : ∀ x ∈ State.failingRestarted.chronicle.toList,
      (x.published?).map (·.kind) = some .restartScheduled →
        x = ⟨0, .published (.scheduled "a" 1 (.ofMillis 60) "lost")⟩ := by
    decide +kernel
  obtain ⟨moment, delay, schedules, starts⟩ := paid 1 _ second later
  obtain ⟨post, attempt, reason, roll, hp, hd, hk⟩ := schedules
  have entry := told _ (Array.mem_toList_iff.2 (Array.mem_of_getElem? hk)) rfl
  have now : moment = 0 := congrArg Entry.moment entry
  have count : some (attempt + 1) = some 1 :=
    congrArg (fun x : Entry ↦ (x.published?).bind (·.attempt)) entry
  cases count
  subst now
  have value : delay = .ofMillis 60 := by
    have h : (Setup.failing.settings.backoff.delay 0 0).toOption = some (.ofMillis 60) := by
      decide +kernel
    exact Option.some.inj ((congrArg Except.toOption hd).symm.trans h)
  subst value
  exact ⟨pay 1, ⟨post, 0, reason, roll, hp, hd, hk⟩, starts.2 ⟨by decide, by decide⟩⟩

/-- With another run the host starts a cycle of the failing resource, although none may be started
any more. -/
theorem failing_starts_again :
    Reaches .failing (fun _ ↦ True) (State.atRest .failing) State.failingEnded ∧
      State.failingEnded.stopping = true ∧
      Reaches .failing (fun _ ↦ True) State.failingEnded State.failingAgain ∧
      State.failingEnded.cycles.size < State.failingAgain.cycles.size := by
  have waits : Reaches .failing (fun _ ↦ True) (State.atRest .failing) State.failingWaits :=
    State.reaches_failingWaits trivial
  have ended : Reaches .failing (fun _ ↦ True) (State.atRest .failing) State.failingEnded :=
    State.reaches_play waits (by decide +kernel) fun _ _ ↦ trivial
  have again : Reaches .failing (fun _ ↦ True) State.failingEnded State.failingAgain :=
    State.reaches_play (.refl _) (by decide +kernel) fun _ _ ↦ trivial
  exact ⟨ended, by decide +kernel, again, by decide +kernel⟩

end Supervision
