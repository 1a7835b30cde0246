import ScreenPlan.Json.Value

/-!
# The component catalog

The closed list of component kinds, the props each may carry and the choices for enumerated props.
-/

namespace ScreenPlan

/-- The props of one kind of component. Props with a fixed choice of values are allowed props. -/
structure Spec where
  allowed : List String
  choices : Table (List String)
  choices_allowed : ∀ p ∈ choices.names, p ∈ allowed := by decide

/-- Enumerated props that are not allowed at all. -/
structure StrayProps where
  names : List String
  deriving DecidableEq, Repr

def StrayProps.message (e : StrayProps) : String :=
  "Enumerated props missing from allowed_props: " ++ String.intercalate ", " e.names

namespace Spec

def make (allowed : List String) (choices : Table (List String)) : Except StrayProps Spec :=
  if h : ∀ p ∈ choices.names, p ∈ allowed then .ok ⟨allowed, choices, h⟩
  else .error ⟨choices.names.filter fun p => decide (p ∉ allowed)⟩

def allows (s : Spec) (prop : String) : Bool := decide (prop ∈ s.allowed)

/-- The allowed props that are present, in catalog order and with their values untouched. -/
def project {α : Type} (s : Spec) (props : Table α) : Table α :=
  s.allowed.filterMap fun p => (props.get? p).map fun v => (p, v)

end Spec

inductive Kind where
  | button
  | card
  | input
  | table
  | layout
  deriving DecidableEq, Repr

namespace Kind

/-- Catalog order. -/
def all : List Kind := [.button, .card, .input, .table, .layout]

def name : Kind → String
  | .button => "Button"
  | .card => "Card"
  | .input => "Input"
  | .table => "Table"
  | .layout => "Layout"

def named? (s : String) : Option Kind := all.find? fun k => decide (k.name = s)

def ofValue? (v : Value) : Option Kind := v.text?.bind named?

def spec : Kind → Spec
  | .button =>
    { allowed := ["label", "variant", "size"]
      choices := [("variant", ["primary", "secondary", "outline"]), ("size", ["sm", "md", "lg"])] }
  | .card =>
    { allowed := ["title", "description", "content"]
      choices := [] }
  | .input =>
    { allowed := ["label", "placeholder", "type"]
      choices := [("type", ["text", "email", "password", "number", "search", "tel", "url"])] }
  | .table =>
    { allowed := ["headers", "rows", "caption"]
      choices := [] }
  | .layout =>
    { allowed := ["type"]
      choices := [("type", ["grid", "flex", "sidebar-layout"])] }

theorem mem_all (k : Kind) : k ∈ all := by cases k <;> decide

theorem named?_name (k : Kind) : named? k.name = some k := by cases k <;> decide

theorem name_inj {k l : Kind} (h : k.name = l.name) : k = l :=
  Option.some.inj (by rw [← named?_name k, h, named?_name])

theorem name_of_named? {s : String} {k : Kind} (h : named? s = some k) : k.name = s := by
  simpa using List.find?_some h

end Kind

/-- The arrangements of the root of a plan are those of a layout component. -/
def layoutVariants : List String := (Kind.layout.spec.choices.get? "type").getD []

/-- Props that hold text wherever they appear. -/
def textProps : List String :=
  ["label", "placeholder", "title", "description", "content", "caption"]

/-- The allowed part of raw props of a raw kind; nothing if either is not what it should be. -/
def projectRaw (kind props : Value) : Table Value :=
  match Kind.ofValue? kind, props.fields? with
  | some k, some fs => k.spec.project fs
  | _, _ => []

end ScreenPlan
