import ScreenPlan.Plan.Reading
import ScreenPlan.Proofs.Audit.Grammar

/-!
# The form of a candidate

The form of a candidate holds what a plan can hold: keys that plans do not have are dropped, null
or missing props are an empty table and missing children an empty list. The audit cannot tell a
candidate from its form, and what is read from a candidate without violations has its form.
-/

namespace ScreenPlan

/-- A way to set out the props of a kind. -/
abbrev Setting := Kind → Table Value → Table Value

namespace Form

def untouched : Setting := fun _ props => props

def inCatalogOrder : Setting := fun kind props => kind.spec.project props

/-- The given props; null and none are an empty table. -/
def given : Option Value → Value
  | none | some .null => .object []
  | some v => v

def arrange (f : Setting) (type props : Value) : Value :=
  match Kind.ofValue? type, props with
  | some kind, .object ps => .object (f kind ps)
  | _, props => props

mutual
def node (f : Setting) : Value → Value
  | .object fields =>
    let type := (Table.get? fields "type").getD .null
    .object [("type", type), ("props", arrange f type (given (Table.get? fields "props"))),
      ("children", children f fields)]
  | v => v

def nodes (f : Setting) : List Value → List Value
  | [] => []
  | v :: vs => node f v :: nodes f vs

def listed (f : Setting) : Value → Value
  | .list vs => .list (nodes f vs)
  | v => v

/-- The children among the fields of a node. -/
def children (f : Setting) : List (String × Value) → Value
  | [] => .list []
  | (key, v) :: fields => if key = "children" then listed f v else children f fields
end

def plan (f : Setting) : Value → Value
  | .object fields =>
    .object [("layout", (Table.get? fields "layout").getD .null),
      ("components", ((Table.get? fields "components").map (listed f)).getD .null)]
  | v => v

theorem nodes_eq_map (f : Setting) (vs : List Value) : nodes f vs = vs.map (node f) := by
  induction vs with
  | nil => rw [nodes]; rfl
  | cons v vs ih => rw [nodes, ih]; rfl

theorem children_eq (f : Setting) (fields : Table Value) :
    children f fields = ((fields.get? "children").map (listed f)).getD (.list []) := by
  induction fields with
  | nil => rw [children]; rfl
  | cons e fields ih =>
    obtain ⟨key, v⟩ := e
    rw [children, Table.get?_cons, ih]
    split <;> rfl

theorem listed_list (f : Setting) (vs : List Value) : listed f (.list vs) = .list (vs.map (node f)) := by
  rw [listed, nodes_eq_map]

theorem arrange_untouched (type props : Value) : arrange untouched type props = props := by
  unfold arrange untouched
  split <;> simp_all

/-! ### The audit of a form -/

theorem bind_ofValue?_getD (type : Option Value) :
    (some (type.getD .null)).bind Kind.ofValue? = type.bind Kind.ofValue? := by
  cases type <;> rfl

theorem propsViolations_given (kind : Kind) (props : Option Value) (path : String) :
    Audit.propsViolations kind (some (given props)) path = Audit.propsViolations kind props path := by
  cases props with
  | none => rfl
  | some v => cases v <;> rfl

theorem childrenViolations_children (fields : Table Value) (path : String) :
    Audit.childrenViolations (some (children untouched fields)) path =
      Audit.childrenViolations (fields.get? "children") path := by
  rw [children_eq]
  cases Table.get? fields "children" with
  | none => rfl
  | some v => cases v <;> simp only [Option.map_some, Option.getD_some, listed, Audit.childrenViolations]

theorem nodeViolations_node (v : Value) (path : String) :
    Audit.nodeViolations (node untouched v) path = Audit.nodeViolations v path := by
  cases v with
  | object fields =>
    rw [node]
    simp only [Audit.nodeViolations, Table.get?_cons, arrange_untouched, String.reduceEq, if_true, if_false,
      bind_ofValue?_getD, propsViolations_given, childrenViolations_children]
  | _ => simp only [node]

theorem childrenOf_node (v : Value) :
    Audit.childrenOf (node untouched v) = (Audit.childrenOf v).map (node untouched) := by
  cases v with
  | object fields =>
    rw [node]
    simp only [Audit.childrenOf, Table.get?_cons, String.reduceEq, if_true, if_false,
      bind_ofValue?_getD, children_eq]
    cases (Table.get? fields "type").bind Kind.ofValue? with
    | none => rfl
    | some kind =>
      cases Table.get? fields "children" with
      | none => rfl
      | some v =>
        cases v <;> simp only [Option.map_some, Option.getD_some, listed, nodes_eq_map, List.map_nil]
  | _ => simp only [node, Audit.childrenOf, List.map_nil]

theorem forest_map_node {vs : List Value}
    (each : ∀ v ∈ vs, ∀ level path, Audit.tree level path (node untouched v) = Audit.tree level path v)
    (pathOf : Nat → String) (level start : Nat) :
    Audit.forest pathOf level start (vs.map (node untouched)) = Audit.forest pathOf level start vs := by
  induction vs generalizing start with
  | nil => rfl
  | cons v vs ih =>
    rw [List.map_cons, Audit.forest_cons, Audit.forest_cons, each v List.mem_cons_self,
      ih fun w hw => each w (List.mem_cons_of_mem _ hw)]

theorem tree_node (level : Nat) (path : String) (v : Value) :
    Audit.tree level path (node untouched v) = Audit.tree level path v := by
  induction v using Audit.children_induction generalizing level path with
  | step v ih =>
    by_cases deep : Audit.maxLevel < level
    · rw [Audit.tree_of_tooDeep deep, Audit.tree_of_tooDeep deep]
    · rw [Audit.tree_of_le (by omega), Audit.tree_of_le (by omega), nodeViolations_node,
        childrenOf_node, forest_map_node fun c hc level path => ih c hc level path]

/-- Nothing that the form leaves out or fills in makes a difference to the audit. -/
theorem audit_plan (c : Value) : audit (plan untouched c) = audit c := by
  cases c with
  | object fields =>
    rw [plan, audit_object, audit_object]
    simp only [Table.get?_cons, String.reduceEq, if_true, if_false]
    congr 1
    · cases Table.get? fields "layout" <;> rfl
    · cases Table.get? fields "components" with
      | none => rfl
      | some v =>
        cases v with
        | list vs =>
          simp only [Option.map_some, Option.getD_some, listed_list]
          exact forest_map_node (fun v _ level path => tree_node level path v) _ _ _
        | _ => simp only [Option.map_some, Option.getD_some, listed]
  | _ => simp only [plan]

end Form
end ScreenPlan
