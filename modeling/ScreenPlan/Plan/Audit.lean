import ScreenPlan.Catalog

/-!
# Auditing candidates

Checks an untyped candidate against the catalog and lists every violation in tree order. A node
that is no object, has an unknown type or sits too deep is reported once and nothing below it is
looked at. The walk keeps the nodes still to visit on a stack.
-/

namespace ScreenPlan

inductive ViolationCode where
  | notAnObject
  | invalidLayout
  | notAnArray
  | unknownKind
  | propNotAllowed
  | valueNotAllowed
  | notAString
  | tableShape
  | tooDeep
  deriving DecidableEq, Repr

def ViolationCode.name : ViolationCode → String
  | .notAnObject => "not_an_object"
  | .invalidLayout => "invalid_layout"
  | .notAnArray => "not_an_array"
  | .unknownKind => "unknown_kind"
  | .propNotAllowed => "prop_not_allowed"
  | .valueNotAllowed => "value_not_allowed"
  | .notAString => "not_a_string"
  | .tableShape => "table_shape"
  | .tooDeep => "too_deep"

/-- A broken rule and the place where it is broken. -/
structure Violation where
  path : String
  message : String
  code : ViolationCode
  deriving DecidableEq, Repr

def Violation.text (v : Violation) : String := v.path ++ " " ++ v.message

namespace Audit

/-- Top-level components sit at level 1. -/
def maxLevel : Nat := 64

def oneOf (choices : List String) : String :=
  "must be one of: " ++ String.intercalate ", " choices ++ "."

def propPath (path prop : String) : String := path ++ ".props." ++ prop

def childPath (path : String) (i : Nat) : String := path ++ ".children[" ++ toString i ++ "]"

def componentPath (i : Nat) : String := "components[" ++ toString i ++ "]"

def isTextList (v : Value) : Bool :=
  match v with
  | .list xs => xs.all Value.isText
  | _ => false

def isTextTable (v : Value) : Bool :=
  match v with
  | .list rows => rows.all isTextList
  | _ => false

def disallowed (kind : Kind) (props : Table Value) (path : String) : List Violation :=
  props.filterMap fun (key, _) =>
    if kind.spec.allows key then none
    else some ⟨propPath path key, "is not allowed for " ++ kind.name ++ ".", .propNotAllowed⟩

/-- Only text can break a rule of choice. -/
def misused (kind : Kind) (props : Table Value) (path : String) : List Violation :=
  kind.spec.choices.filterMap fun (prop, choices) =>
    match props.get? prop with
    | some (.str s) =>
      if s ∈ choices then none else some ⟨propPath path prop, oneOf choices, .valueNotAllowed⟩
    | _ => none

def untexted (props : Table Value) (path : String) : List Violation :=
  props.filterMap fun (key, v) =>
    if key ∈ textProps ∧ ¬ v.isText then some ⟨propPath path key, "must be a string.", .notAString⟩
    else none

/-- A table needs its headers and rows. -/
def misshapen (kind : Kind) (props : Table Value) (path : String) : List Violation :=
  if kind = .table then
    (if (props.get? "headers").any isTextList then []
      else [⟨propPath path "headers", "must be an array of strings.", .tableShape⟩]) ++
    (if (props.get? "rows").any isTextTable then []
      else [⟨propPath path "rows", "must be an array of string arrays.", .tableShape⟩])
  else []

def propViolations (kind : Kind) (props : Table Value) (path : String) : List Violation :=
  disallowed kind props path ++ misused kind props path ++ untexted props path ++
    misshapen kind props path

/-- Null counts as no props at all. -/
def propsViolations (kind : Kind) (props : Option Value) (path : String) : List Violation :=
  match props with
  | none | some .null => propViolations kind [] path
  | some (.object fs) => propViolations kind fs path
  | some _ => [⟨path ++ ".props", "must be an object when provided.", .notAnObject⟩]

def childrenViolations (children : Option Value) (path : String) : List Violation :=
  match children with
  | none | some (.list _) => []
  | some _ => [⟨path ++ ".children", "must be an array when provided.", .notAnArray⟩]

/-- The violations of a node itself, its children left aside. -/
def nodeViolations (node : Value) (path : String) : List Violation :=
  match node with
  | .object fields =>
    match (Table.get? fields "type").bind Kind.ofValue? with
    | none => [⟨path ++ ".type", "must be a whitelisted component.", .unknownKind⟩]
    | some kind =>
      propsViolations kind (Table.get? fields "props") path ++
        childrenViolations (Table.get? fields "children") path
  | _ => [⟨path, "must be an object.", .notAnObject⟩]

/-- The children to visit. -/
def childrenOf (node : Value) : List Value :=
  match node with
  | .object fields =>
    match (Table.get? fields "type").bind Kind.ofValue?, Table.get? fields "children" with
    | some _, some (.list children) => children
    | _, _ => []
  | _ => []

structure Visit where
  node : Value
  path : String
  level : Nat

/-- The visits to a list of nodes side by side, the first of which has the given index. -/
def visits (pathOf : Nat → String) (level start : Nat) : List Value → List Visit
  | [] => []
  | v :: vs => ⟨v, pathOf start, level⟩ :: visits pathOf level (start + 1) vs

/-- The nodes of a stack of visits, measured. -/
noncomputable def weight : List Visit → Nat
  | [] => 0
  | v :: rest => sizeOf v.node + weight rest

theorem weight_append (vs rest : List Visit) : weight (vs ++ rest) = weight vs + weight rest := by
  induction vs with
  | nil => simp [weight]
  | cons v vs ih =>
    rw [List.cons_append, weight, ih, weight]
    omega

theorem weight_visits_lt (pathOf : Nat → String) (level start : Nat) (vs : List Value) :
    weight (visits pathOf level start vs) < sizeOf vs := by
  induction vs generalizing start with
  | nil => simp [visits, weight]
  | cons v vs ih =>
    have := ih (start + 1)
    simp only [visits, weight, List.cons.sizeOf_spec]
    omega

theorem sizeOf_childrenOf_le (node : Value) : sizeOf (childrenOf node) ≤ sizeOf node := by
  have := Value.sizeOf_pos node
  unfold childrenOf
  split
  · split
    · next h =>
      have := Value.sizeOf_lt_of_get? h
      simp only [Value.list.sizeOf_spec] at this
      omega
    · exact this
  · exact this

def tooDeep (path : String) : Violation :=
  ⟨path, "must not be nested more than " ++ toString maxLevel ++ " levels deep.", .tooDeep⟩

/-- Works off a stack of visits; the children of a node come before what is left of it. -/
def walk : List Visit → List Violation
  | [] => []
  | v :: rest =>
    if maxLevel < v.level then tooDeep v.path :: walk rest
    else
      nodeViolations v.node v.path ++
        walk (visits (childPath v.path) (v.level + 1) 0 (childrenOf v.node) ++ rest)
termination_by stack => weight stack
decreasing_by
  · have := Value.sizeOf_pos v.node
    simp only [weight]
    omega
  · have := weight_visits_lt (childPath v.path) (v.level + 1) 0 (childrenOf v.node)
    have := sizeOf_childrenOf_le v.node
    simp only [weight, weight_append]
    omega

def layoutViolations (layout : Option Value) : List Violation :=
  match layout with
  | some (.str s) => if s ∈ layoutVariants then [] else [wrong]
  | _ => [wrong]
where
  wrong : Violation := ⟨"Plan.layout", oneOf layoutVariants, .invalidLayout⟩

end Audit

open Audit in
/-- Every violation of a candidate plan: those of the root, then those of its components. -/
def audit (candidate : Value) : List Violation :=
  match candidate with
  | .object fields =>
    layoutViolations (Table.get? fields "layout") ++
      match Table.get? fields "components" with
      | some (.list components) => walk (visits componentPath 1 0 components)
      | _ => [⟨"Plan.components", "must be an array.", .notAnArray⟩]
  | _ => [⟨"Plan", "must be an object.", .notAnObject⟩]

def hasUnknownKind (violations : List Violation) : Bool :=
  violations.any fun v => decide (v.code = .unknownKind)

def errorTexts (violations : List Violation) : List String := violations.map Violation.text

end ScreenPlan
