import ScreenPlan.Plan.Audit
import ScreenPlan.Plan.Reading
import ScreenPlan.Telemetry.Log

/-!
# Admission

Turns a candidate into a plan if nothing is wrong with it, and hands out the full list of errors
otherwise.
-/

namespace ScreenPlan

structure SchemaViolation where
  errors : List String
  unknownKind : Bool
  deriving DecidableEq, Repr

def SchemaViolation.message (e : SchemaViolation) : String :=
  "Plan failed validation: " ++
    match e.errors with
    | [error] => error
    | errors => toString errors.length ++ " schema violations"

def SchemaViolation.ofViolations (violations : List Violation) : SchemaViolation :=
  ⟨errorTexts violations, hasUnknownKind violations⟩

/-- Every audit reports how many errors it found. -/
def auditEvent (violations : List Violation) : Event :=
  ⟨"uiplanner.plan.validator", .debug, "plan_validated", [("errors", .int violations.length)]⟩

inductive Refusal where
  | schema (violation : SchemaViolation)
  | unreadable (issues : List Issue)
  deriving DecidableEq, Repr

def accept (candidate : Value) : Except Refusal Plan :=
  match audit candidate with
  | [] => (Plan.read candidate).mapError .unreadable
  | violations => .error (.schema (.ofViolations violations))

/-- The same with violations as data; only a candidate that cannot be read remains an error. -/
def verdict (candidate : Value) : Checked (Except SchemaViolation Plan) :=
  match accept candidate with
  | .ok p => .ok (.ok p)
  | .error (.schema violation) => .ok (.error violation)
  | .error (.unreadable issues) => .error issues

/-- What a planning request leads to: a plan or the errors of the one that was refused. -/
structure Outcome where
  plan : Option Plan
  errors : List String

namespace Outcome

def accepted (p : Plan) : Outcome := ⟨some p, []⟩

def rejected (errors : List String) : Outcome := ⟨none, errors⟩

def isValid (o : Outcome) : Bool := o.plan.isSome && o.errors.isEmpty

/-- The response for the rendering layer. -/
def response (o : Outcome) : Except PayloadError Value :=
  let build (plan : Value) := Value.object
    [("plan", plan), ("errors", .list (o.errors.map .str)), ("isValid", .bool o.isValid)]
  match o.plan with
  | none => .ok (build .null)
  | some p => p.payload.map build

def readErrors (v : Value) : Checked (List String) :=
  Checked.within (.field "errors") (match v with
    | .list vs => Checked.items Checked.text 0 vs
    | _ => Checked.refuse .notList)

end Outcome
end ScreenPlan
