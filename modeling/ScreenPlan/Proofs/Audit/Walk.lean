import ScreenPlan.Plan.Audit

/-!
# The audit as a recursion

`tree` lists the violations of a node and of all nodes below it by recursion on the tree.
`walk_visits` shows that the walk over a stack of visits lists the same violations in the same
order.
-/

namespace ScreenPlan

namespace Audit

theorem children_induction {P : Value → Prop} (step : ∀ v, (∀ c ∈ childrenOf v, P c) → P v)
    (v : Value) : P v := by
  apply step
  intro c hc
  exact children_induction step c
termination_by sizeOf v
decreasing_by
  have := List.sizeOf_lt_of_mem hc
  have := sizeOf_childrenOf_le v
  omega

mutual
/-- The violations of a node and of the nodes below it. -/
def tree (level : Nat) (path : String) (v : Value) : List Violation :=
  if maxLevel < level then [tooDeep path]
  else nodeViolations v path ++ forest (childPath path) (level + 1) 0 (childrenOf v)
termination_by (sizeOf v, 1)
decreasing_by
  have := sizeOf_childrenOf_le v
  rw [Prod.lex_def]
  dsimp only
  omega

/-- The violations of nodes side by side, the first of which has the given index. -/
def forest (pathOf : Nat → String) (level start : Nat) : List Value → List Violation
  | [] => []
  | v :: vs => tree level (pathOf start) v ++ forest pathOf level (start + 1) vs
termination_by vs => (sizeOf vs, 0)
decreasing_by
  all_goals
    rw [Prod.lex_def]
    simp only [List.cons.sizeOf_spec]
    omega
end

theorem forest_nil (pathOf : Nat → String) (level start : Nat) :
    forest pathOf level start [] = [] := by
  rw [forest]

theorem forest_cons (pathOf : Nat → String) (level start : Nat) (v : Value) (vs : List Value) :
    forest pathOf level start (v :: vs) =
      tree level (pathOf start) v ++ forest pathOf level (start + 1) vs := by
  rw [forest]

theorem tree_of_tooDeep {level : Nat} (h : maxLevel < level) (path : String) (v : Value) :
    tree level path v = [tooDeep path] := by
  rw [tree, if_pos h]

theorem tree_of_le {level : Nat} (h : level ≤ maxLevel) (path : String) (v : Value) :
    tree level path v =
      nodeViolations v path ++ forest (childPath path) (level + 1) 0 (childrenOf v) := by
  rw [tree, if_neg (by omega)]

/-- Visits on top of the stack are worked off by recursion if each single visit is. -/
theorem walk_visits_of {vs : List Value}
    (each : ∀ v ∈ vs, ∀ level path rest, walk (⟨v, path, level⟩ :: rest) = tree level path v ++ walk rest)
    (pathOf : Nat → String) (level start : Nat) (rest : List Visit) :
    walk (visits pathOf level start vs ++ rest) = forest pathOf level start vs ++ walk rest := by
  induction vs generalizing start with
  | nil => rw [visits, forest_nil]; rfl
  | cons v vs ih =>
    rw [visits, List.cons_append, each v List.mem_cons_self, forest_cons, List.append_assoc,
      ih (fun w hw => each w (List.mem_cons_of_mem _ hw))]

/-- The stack below a visit does not matter: the node's whole tree is listed first. -/
theorem walk_cons (v : Value) (path : String) (level : Nat) (rest : List Visit) :
    walk (⟨v, path, level⟩ :: rest) = tree level path v ++ walk rest := by
  -- The rest stays general: the walk puts the children on top of it.
  induction v using children_induction generalizing path level rest with
  | step v ih =>
    rw [walk]
    by_cases deep : maxLevel < level
    · rw [if_pos deep, tree_of_tooDeep deep]; rfl
    · rw [if_neg deep, tree_of_le (by omega), List.append_assoc,
        walk_visits_of (fun c hc level path rest => ih c hc path level rest)]

theorem walk_visits (pathOf : Nat → String) (level start : Nat) (vs : List Value) :
    walk (visits pathOf level start vs) = forest pathOf level start vs := by
  have each : ∀ v ∈ vs, ∀ level path rest, walk (⟨v, path, level⟩ :: rest) = tree level path v ++ walk rest :=
    fun v _ level path rest => walk_cons v path level rest
  have := walk_visits_of each pathOf level start []
  rwa [List.append_nil, walk, List.append_nil] at this

end Audit

open Audit in
/-- The audit of an object: its layout, then its components one after the other. -/
theorem audit_object (fields : List (String × Value)) :
    audit (.object fields) = layoutViolations (Table.get? fields "layout") ++
      match Table.get? fields "components" with
      | some (.list components) => forest componentPath 1 0 components
      | _ => [⟨"Plan.components", "must be an array.", .notAnArray⟩] := by
  unfold audit
  dsimp only
  congr 1
  cases Table.get? fields "components" with
  | none => rfl
  | some v =>
    cases v with
    | list components => exact walk_visits _ _ _ _
    | _ => rfl

end ScreenPlan
