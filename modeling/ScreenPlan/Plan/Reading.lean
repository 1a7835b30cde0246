import ScreenPlan.Plan.Node
import ScreenPlan.Schema.Issue

/-!
# Reading plans

Builds a plan from untyped data by its shape alone. Keys that a plan does not have are dropped,
null or missing props become empty, missing children become none. Below the deepest level nothing
is read.
-/

namespace ScreenPlan

namespace Node

def readKind (fields : Table Value) : Checked Kind :=
  Checked.required fields "type" fun v =>
    match Checked.text v with
    | .ok s =>
      match Kind.named? s with
      | some k => .ok k
      | none => Checked.refuse .notKind
    | .error _ => Checked.refuse .notKind

def readProps (fields : Table Value) : Checked (Table Value) :=
  Checked.optional fields "props" [] fun v =>
    match v with
    | .null => .ok []
    | .object props => .ok props
    | _ => Checked.refuse .notObject

mutual
/-- Reads the node at the given level. -/
def read (level : Nat) (v : Value) : Checked Node :=
  if maxLevel < level then Checked.refuse .tooDeep
  else
    match v with
    | .object fields =>
      match readKind fields, readProps fields, readChildren level fields with
      | .ok kind, .ok props, .ok children => .ok ⟨kind, props, children⟩
      | kind, props, children =>
        .error (Checked.issues kind ++ Checked.issues props ++ Checked.issues children)
    | _ => Checked.refuse (.notModel "PlanNode")

/-- Reads nodes side by side, the first of which has the given index. -/
def readAll (level start : Nat) : List Value → Checked (List Node)
  | [] => .ok []
  | v :: vs =>
    match Checked.within (.index start) (read level v), readAll level (start + 1) vs with
    | .ok n, .ok ns => .ok (n :: ns)
    | n, ns => .error (Checked.issues n ++ Checked.issues ns)

/-- The children among the fields of the node at the given level. -/
def readChildren (level : Nat) : List (String × Value) → Checked (List Node)
  | [] => .ok []
  | (key, v) :: fields =>
    if key = "children" then
      Checked.within (.field "children") (match v with
        | .list vs => readAll (level + 1) 0 vs
        | _ => Checked.refuse .notList)
    else readChildren level fields
end

end Node

namespace Plan

def read : Value → Checked Plan
  | .object fields =>
    match Checked.required fields "layout" Checked.text,
      Checked.required fields "components" (fun v =>
        match v with
        | .list vs => Node.readAll 1 0 vs
        | _ => Checked.refuse .notList) with
    | .ok layout, .ok components => .ok ⟨layout, components⟩
    | layout, components => .error (Checked.issues layout ++ Checked.issues components)
  | _ => Checked.refuse (.notModel "UIPlan")

end Plan
end ScreenPlan
