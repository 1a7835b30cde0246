import ScreenPlan.Decimal.Spelling
import ScreenPlan.Telemetry.Metrics
import ScreenPlan.Text.Phrase

/-!
# Exposition of metrics

The line format in which metrics are handed to a collector.
-/

namespace ScreenPlan.Exposition

def spelling : Spelling :=
  { least := -4, plus := true, twoDigitExponent := true
    nan := "NaN", infinity := "+Inf", negativeInfinity := "-Inf" }

def stripEnd (s : List Char) : List Char :=
  (s.reverse.dropWhile fun c => c = '0' || c = '.').reverse

/-- Positive numbers with more than six digits before the point switch to an exponent. -/
def number (x : Float) : String :=
  let s := spelling.write x
  let whole := (s.takeWhile fun c => c ≠ '.').length
  if whole < s.length ∧ 6 < whole ∧ x > 0 then
    let mantissa := stripEnd (s.take 1 ++ '.' :: (s.take whole).drop 1 ++ s.drop (whole + 1))
    String.ofList (mantissa ++ spelling.exponentOf (whole - 1))
  else String.ofList s

def count (n : Nat) : String := number (Float.ofNat n)

def escapeLabel (s : String) : String :=
  String.ofList (s.toList.flatMap fun c =>
    if c = '\\' then ['\\', '\\'] else if c = '\n' then ['\\', 'n']
    else if c = '"' then ['\\', '"'] else [c])

def labelled (name label value : String) : String :=
  name ++ "\x7b" ++ label ++ "=\"" ++ escapeLabel value ++ "\"\x7d"

def header (name help type : String) : List String :=
  ["# HELP " ++ name ++ " " ++ help, "# TYPE " ++ name ++ " " ++ type]

def familySamples (name label : String) (f : Family) : List String :=
  f.map fun (value, n) => labelled name label value ++ " " ++ count n

def durationName : String := "uiplan_plan_duration_seconds"

def buckets (h : Histogram) : List String :=
  (Histogram.bounds.zip h.cumulative).map fun (bound, n) =>
    labelled (durationName ++ "_bucket") "le" (number bound) ++ " " ++ count n

def durationSamples (h : Histogram) : List String :=
  [durationName ++ "_count " ++ count h.count, durationName ++ "_sum " ++ number h.sum]

def requestSamples (m : Metrics) : List String :=
  familySamples "uiplan_plan_requests_total" "status" m.requests

def errorSamples (m : Metrics) : List String :=
  ["uiplan_validation_errors_total " ++ number m.validationErrors]

def generationSamples (m : Metrics) : List String :=
  familySamples "uiplan_generations_total" "outcome" m.generations

def lookupSamples (m : Metrics) : List String :=
  familySamples "uiplan_cache_lookups_total" "result" m.lookups

/-- Does a line tell when a figure was first recorded? That is known by a mark which may stand
anywhere in the line, labels included. -/
def tellsCreation (line : String) : Bool := Text.occursIn "_created".toList line.toList

def lines (m : Metrics) : List String :=
  header "uiplan_plan_requests_total" "Total number of planner requests" "counter" ++
    requestSamples m ++
    header durationName "Planner request duration in seconds" "histogram" ++
    buckets m.durations ++ durationSamples m.durations ++
    header "uiplan_validation_errors_total" "Total number of plan validation errors reported" "counter" ++
    errorSamples m ++
    header "uiplan_generations_total" "Total number of code generation calls" "counter" ++
    generationSamples m ++
    header "uiplan_cache_lookups_total" "Total number of plan cache lookups" "counter" ++
    lookupSamples m

/-- All lines but those that tell when a figure was first recorded. -/
def full (m : Metrics) : List String := (lines m).filter fun line => !tellsCreation line

/-- The samples without headers and buckets. -/
def summary (m : Metrics) : List String :=
  requestSamples m ++ durationSamples m.durations ++ errorSamples m ++ generationSamples m ++
    lookupSamples m

end ScreenPlan.Exposition
