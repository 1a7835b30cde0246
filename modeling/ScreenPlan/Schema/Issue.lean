import ScreenPlan.Json.Value

/-!
# Issues with untyped input

Typed readers of untyped values report every field that does not fit, with its place and a code.
-/

namespace ScreenPlan

inductive Place where
  | field (name : String)
  | index (i : Nat)
  deriving DecidableEq, Repr

inductive Misfit where
  | missing
  | unexpected
  | notText
  | notList
  | notObject
  | notModel (name : String)
  | notKind
  | emptyText
  | refused (reason : String)
  | notInteger
  | notWhole
  | notFinite
  | notIntegerText
  | integerTooLarge
  | notPositive
  | notBoolean
  | notBooleanText
  | tooDeep
  deriving DecidableEq, Repr

namespace Misfit

def code : Misfit → String
  | .missing => "missing"
  | .unexpected => "extra_forbidden"
  | .notText => "string_type"
  | .notList => "list_type"
  | .notObject => "dict_type"
  | .notModel _ => "model_type"
  | .notKind => "enum"
  | .emptyText => "string_too_short"
  | .refused _ => "value_error"
  | .notInteger => "int_type"
  | .notWhole => "int_from_float"
  | .notFinite => "finite_number"
  | .notIntegerText => "int_parsing"
  | .integerTooLarge => "int_parsing_size"
  | .notPositive => "greater_than"
  | .notBoolean => "bool_type"
  | .notBooleanText => "bool_parsing"
  | .tooDeep => "recursion_depth_exceeded"

def message : Misfit → String
  | .missing => "Field required"
  | .unexpected => "Extra inputs are not permitted"
  | .notText => "Input should be a valid string"
  | .notList => "Input should be a valid list"
  | .notObject => "Input should be a valid dictionary"
  | .notModel name => "Input should be a valid dictionary or instance of " ++ name
  | .notKind => "Input should be 'Button', 'Card', 'Input', 'Table' or 'Layout'"
  | .emptyText => "String should have at least 1 character"
  | .refused reason => "Value error, " ++ reason
  | .notInteger => "Input should be a valid integer"
  | .notWhole => "Input should be a valid integer, got a number with a fractional part"
  | .notFinite => "Input should be a finite number"
  | .notIntegerText => "Input should be a valid integer, unable to parse string as an integer"
  | .integerTooLarge => "Unable to parse input string as an integer, exceeded maximum size"
  | .notPositive => "Input should be greater than 0"
  | .notBoolean => "Input should be a valid boolean"
  | .notBooleanText => "Input should be a valid boolean, unable to interpret input"
  | .tooDeep => "Recursion error - maximum validation depth exceeded"

end Misfit

structure Issue where
  path : List Place
  misfit : Misfit
  deriving DecidableEq, Repr

/-- A typed value, or all issues that stand in its way. -/
abbrev Checked (α : Type) := Except (List Issue) α

namespace Checked
variable {α : Type}

def refuse (m : Misfit) : Checked α := .error [⟨[], m⟩]

def issues : Checked α → List Issue
  | .ok _ => []
  | .error is => is

def within (place : Place) : Checked α → Checked α
  | .ok a => .ok a
  | .error is => .error (is.map fun i => { i with path := place :: i.path })

def required (fields : Table Value) (name : String) (read : Value → Checked α) : Checked α :=
  within (.field name) (match fields.get? name with
    | none => refuse .missing
    | some v => read v)

def optional (fields : Table Value) (name : String) (default : α) (read : Value → Checked α) :
    Checked α :=
  match fields.get? name with
  | none => .ok default
  | some v => within (.field name) (read v)

def items (read : Value → Checked α) (start : Nat) : List Value → Checked (List α)
  | [] => .ok []
  | v :: vs =>
    match within (.index start) (read v), items read (start + 1) vs with
    | .ok a, .ok as => .ok (a :: as)
    | a, as => .error (issues a ++ issues as)

/-- Byte strings count as the text they hold. -/
def text : Value → Checked String
  | .str s => .ok s
  | .foreign (.bytes s) => .ok s
  | _ => refuse .notText

end Checked
end ScreenPlan
