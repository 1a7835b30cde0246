import ScreenPlan.Json.Printer
import ScreenPlan.Plan.Node

/-!
# Plans as text

The texts of a plan's payload: compact, indented for prompts, and independent of key order.
-/

namespace ScreenPlan

/-- A plan without a payload, or a payload without a text. -/
inductive Unwritable where
  | payload (error : PayloadError)
  | text (obstacle : Json.Obstacle)
  deriving DecidableEq, Repr

namespace Plan

def writtenWith (p : Plan) (write : Value → Except Json.Obstacle String) : Except Unwritable String :=
  match p.payload with
  | .error e => .error (.payload e)
  | .ok v => (write v).mapError .text

def compact (p : Plan) : Except Unwritable String := p.writtenWith Value.compact

def indented (p : Plan) : Except Unwritable String := p.writtenWith (·.written (.lines "  "))

def canonical (p : Plan) : Except Unwritable String := p.writtenWith Value.canonical

end Plan
end ScreenPlan
