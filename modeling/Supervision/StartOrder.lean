import Supervision.Fault

/-!
# The order in which resources start

Resources start after everything they depend on, and otherwise in the order in which they were
declared. `startOrder` places them one by one: of those whose dependencies are all placed, the one
declared first comes next (`Frontier.place`).

A table is refused when two resources have one name, when a dependency names nobody, or when some
resources wait for each other; the three are looked for in this order.

* `firstRepeated?_eq_none_iff` — nothing is reported exactly when no name stands twice.
-/

namespace Supervision

/-- A resource as it is declared. -/
structure Declaration where
  /-- Its name. -/
  name : String
  /-- Names of the resources it depends on. -/
  dependsOn : List String
deriving DecidableEq, Inhabited

namespace StartOrder

/-- The first name that stands earlier in the list already, given the names seen before. -/
def firstRepeated? (seen : List String) : List String → Option String
  | [] => none
  | n :: ns => if n ∈ seen then some n else firstRepeated? (n :: seen) ns

/-- The declarations that a list of dependencies names, each once, or the first name unknown. -/
def needs (names : List String) : List String → List Nat → Except String (List Nat)
  | [], found => .ok found.reverse
  | d :: ds, found =>
    match names.idxOf? d with
    | none => .error d
    | some j => needs names ds (if j ∈ found then found else j :: found)

/-- The needs of every declaration. -/
def allNeeds (names : List String) : List Declaration → Except RunError (List (List Nat))
  | [] => .ok []
  | r :: rs =>
    match needs names r.dependsOn [] with
    | .error d => .error (.unknownDependency r.name d)
    | .ok ns => (allNeeds names rs).map (ns :: ·)

/-! ### Placing one by one -/

/-- A start order under construction. -/
structure Frontier where
  /-- For each declaration, how many of its needs are not placed yet. -/
  unmet : List Nat
  /-- Declarations with no unmet need that are not placed yet, in order of declaration. -/
  ready : List Nat
  /-- Declarations placed so far, the latest first. -/
  placed : List Nat
deriving DecidableEq

namespace Frontier

/-- Before anything is placed. -/
def initial (needs : List (List Nat)) : Frontier where
  unmet := needs.map List.length
  ready := (List.range needs.length).filter fun i ↦ (needs[i]?.getD []).isEmpty
  placed := []

/-- Inserts a number into an ascending list. -/
def insertUp (k : Nat) : List Nat → List Nat
  | [] => [k]
  | j :: js => if k < j then k :: j :: js else if k = j then j :: js else j :: insertUp k js

/-- One need of declaration `k` is met; the last one makes it ready. -/
def meet (f : Frontier) (k : Nat) : Frontier :=
  let left := f.unmet[k]?.getD 0 - 1
  { f with
    unmet := f.unmet.set k left
    ready := if left = 0 then insertUp k f.ready else f.ready }

/-- The declarations that need declaration `i`. -/
def dependents (needs : List (List Nat)) (i : Nat) : List Nat :=
  (List.range needs.length).filter fun k ↦ (needs[k]?.getD []).contains i

/-- Places the ready declaration that was declared first, if any is ready. -/
def place (needs : List (List Nat)) (f : Frontier) : Frontier :=
  match f.ready with
  | [] => f
  | i :: rest =>
    (dependents needs i).foldl meet { f with ready := rest, placed := i :: f.placed }

/-- Places at most `count` declarations. -/
def placeMany (needs : List (List Nat)) : Nat → Frontier → Frontier
  | 0, f => f
  | count + 1, f => placeMany needs count (f.place needs)

/-- The first declaration with an unmet need. -/
def firstUnmet? (f : Frontier) : Option Nat := f.unmet.findIdx? (0 < ·)

end Frontier

/-! ### The order -/

/-- The start order of a table whose needs are known, or who waits in vain. -/
def ofNeeds (rs : List Declaration) (needs : List (List Nat)) : Except RunError (List Nat) :=
  let f := (Frontier.initial needs).placeMany needs needs.length
  match f.firstUnmet? with
  | some i => .error (.dependencyCycle ((rs[i]?.map (·.name)).getD ""))
  | none => .ok f.placed.reverse

end StartOrder

/-- The order in which declared resources start, by their places in the table. -/
def startOrder (rs : List Declaration) : Except RunError (List Nat) :=
  let names := rs.map (·.name)
  match StartOrder.firstRepeated? [] names with
  | some n => .error (.duplicateResource n)
  | none => StartOrder.allNeeds names rs >>= StartOrder.ofNeeds rs

namespace StartOrder

theorem firstRepeated?_eq_none_iff {seen ns : List String} :
    firstRepeated? seen ns = none ↔ ns.Nodup ∧ ∀ n ∈ ns, n ∉ seen := by
  induction ns generalizing seen with
  | nil => simp [firstRepeated?]
  | cons n ns ih =>
    by_cases h : n ∈ seen
    · simp [firstRepeated?, h]
    · simp only [firstRepeated?, h, if_false, ih, List.nodup_cons, List.mem_cons]
      constructor
      · rintro ⟨hd, hs⟩
        refine ⟨⟨fun hn ↦ (hs n hn) (.inl rfl), hd⟩, ?_⟩
        rintro m (rfl | hm)
        · exact h
        · exact fun hms ↦ hs m hm (.inr hms)
      · rintro ⟨⟨hn, hd⟩, hs⟩
        refine ⟨hd, fun m hm ↦ ?_⟩
        rintro (rfl | hms)
        · exact hn hm
        · exact hs m (.inr hm) hms

end StartOrder

end Supervision
