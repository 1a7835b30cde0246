import ScreenPlan.Decimal.Quantity
import ScreenPlan.Json.Value

/-!
# Metrics

Counters and a histogram of durations, kept over the life of a planner.
-/

namespace ScreenPlan

/-- How a planning request ended. -/
inductive Status where
  | rejected
  | cached
  | completionError
  | malformed
  | invalid
  | valid
  deriving DecidableEq, Repr

def Status.label : Status → String
  | .rejected => "rejected"
  | .cached => "cached"
  | .completionError => "completion_error"
  | .malformed => "malformed"
  | .invalid => "invalid"
  | .valid => "valid"

/-- One counter per label, in order of first use. -/
abbrev Family := Table Nat

namespace Family

def count (f : Family) (label : String) : Nat := (f.get? label).getD 0

def bump (f : Family) (label : String) : Family := f.put label (f.count label + 1)

def total (f : Family) : Nat := f.foldr (fun entry n => entry.2 + n) 0

theorem count_bump (f : Family) (label other : String) :
    (f.bump label).count other = f.count other + if label = other then 1 else 0 := by
  by_cases h : label = other <;> simp [bump, count, Table.get?_put, h]

end Family

/-- Observations by the first bound that is at least as large; the last bound is infinite. -/
structure Histogram where
  counts : List Nat
  sum : Float

namespace Histogram

def bounds : List Float := [0.1, 0.5, 1.0, 2.5, 5.0, 10.0, 30.0, 60.0, 1.0 / 0.0]

def empty : Histogram := ⟨bounds.map fun _ => 0, 0.0⟩

/-- An observation that is not a number falls below no bound. -/
def place (x : Float) : List Float → List Nat → List Nat
  | b :: bs, n :: ns => if x ≤ b then (n + 1) :: ns else n :: place x bs ns
  | _, ns => ns

def observe (h : Histogram) (x : Float) : Histogram := ⟨place x bounds h.counts, h.sum + x⟩

def count (h : Histogram) : Nat := h.counts.foldr (· + ·) 0

/-- Observations up to each bound. -/
def cumulative (h : Histogram) : List Nat :=
  (h.counts.foldl (fun (acc : Nat × List Nat) n => (acc.1 + n, (acc.1 + n) :: acc.2)) (0, [])).2.reverse

end Histogram

structure Metrics where
  requests : Family := []
  durations : Histogram := .empty
  validationErrors : Float := 0.0
  generations : Family := []
  lookups : Family := []

/-- Counters do not go down, and all figures are doubles. -/
inductive MetricsError where
  | negativeIncrement
  | quantity (error : QuantityError)
  deriving DecidableEq, Repr

def MetricsError.message : MetricsError → String
  | .negativeIncrement => "Counters can only be incremented by non-negative amounts."
  | .quantity e => e.message

namespace Metrics

def countRequest (m : Metrics) (status : String) : Metrics :=
  { m with requests := m.requests.bump status }

def recordRequest (m : Metrics) (status : String) (seconds : Float) : Metrics :=
  { m.countRequest status with durations := m.durations.observe seconds }

/-- The request is counted even if its duration cannot be observed. -/
def recordTimed (m : Metrics) (status : String) (duration : Quantity) : Except MetricsError Unit × Metrics :=
  match duration.toFloat with
  | .ok seconds => (.ok (), m.recordRequest status seconds)
  | .error e => (.error (.quantity e), m.countRequest status)

/-- Counts a request that was timed: with its last status, or the one it began with. Also answers
the time that it took. -/
def measure (m : Metrics) (initial : String) (final : Option String) (startedAt now : Float) :
    Float × Metrics :=
  (now - startedAt, m.recordRequest (final.getD initial) (now - startedAt))

def addErrors (m : Metrics) (amount : Float) : Metrics :=
  { m with validationErrors := m.validationErrors + amount }

def addErrors? (m : Metrics) (amount : Quantity) : Except MetricsError Metrics :=
  if amount.isNegative then .error .negativeIncrement
  else (amount.toFloat.mapError .quantity).map m.addErrors

def recordGeneration (m : Metrics) (outcome : String) : Metrics :=
  { m with generations := m.generations.bump outcome }

def recordLookup (m : Metrics) (hit : Bool) : Metrics :=
  { m with lookups := m.lookups.bump (if hit then "hit" else "miss") }

end Metrics
end ScreenPlan
