import Supervision.StartOrder

/-!
# What a start order is

Without a word on how it is found: a start order places every declaration once, and none before one
that it needs (`IsStartOrder`). Of several, the least is the one that prefers what was declared
first, place by place. Declarations that need each other in a circle (`IsInCircle`) have none.
-/

namespace Supervision

namespace StartOrder

/-- Declaration `i` depends on declaration `j`. -/
def Needs (rs : List Declaration) (i j : Nat) : Prop :=
  ∃ r d, rs[i]? = some r ∧ rs[j]? = some d ∧ d.name ∈ r.dependsOn

/-- Every name that a declaration depends on is that of a declaration. -/
def IsClosed (rs : List Declaration) : Prop :=
  ∀ r ∈ rs, ∀ n ∈ r.dependsOn, ∃ d ∈ rs, d.name = n

/-- Declaration `i` needs itself by way of one or several declarations. -/
def IsInCircle (rs : List Declaration) (i : Nat) : Prop := Relation.TransGen (Needs rs) i i

/-- Every declaration has one place, behind everything it depends on. -/
structure IsStartOrder (rs : List Declaration) (order : List Nat) : Prop where
  perm : order.Perm (List.range rs.length)
  needs_before : ∀ before i behind, order = before ++ i :: behind →
    ∀ j, Needs rs i j → j ∈ before

/-- A start order that no other precedes, place by place: where the first difference is, the other
has what was declared later. -/
structure IsLeast (rs : List Declaration) (order : List Nat) : Prop where
  isStartOrder : IsStartOrder rs order
  not_lex : ∀ other, IsStartOrder rs other → ¬ List.Lex (· < ·) other order

end StartOrder

end Supervision
