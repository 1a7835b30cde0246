import ScreenPlan.Json.Reader
import ScreenPlan.Telemetry.Log
import ScreenPlan.Text.CodePoints
import ScreenPlan.Text.Size

/-!
# Replies of the completion service

Finds the JSON value in a reply. The whole reply is tried first; failing that, the stretch from the
first opening brace to the last closing one.
-/

namespace ScreenPlan.Reply

/-- Why a reply holds no candidate. -/
inductive Defect where
  | notText (typeName : String)
  | empty
  | oversize (excess : Text.Oversize)
  | noJson (cause : Option Json.DecodeError)
  deriving DecidableEq, Repr

def Defect.message : Defect → String
  | .notText typeName => "Planner response must be text, got " ++ typeName ++ "."
  | .empty => "Planner response was empty."
  | .oversize excess => excess.message
  | .noJson _ => "Planner response did not contain valid JSON."

/-- A result together with what there is to report about the way to it. -/
structure Reading where
  result : Except Defect Value
  events : List Event

def logger : String := "uiplanner.plan.parser"

def preview (s : List Char) : Value := .str (String.ofList (s.take 200))

def emptyEvent : Event := ⟨logger, .warning, "empty_response", []⟩

def strictEvent (e : Json.DecodeError) : Event :=
  ⟨logger, .debug, "strict_parse_failed", [("error", .str e.message)]⟩

def noJsonEvent (s : List Char) : Event := ⟨logger, .warning, "no_json_found", [("preview", preview s)]⟩

def lenientEvent (e : Json.DecodeError) (s : List Char) : Event :=
  ⟨logger, .warning, "lenient_parse_failed", [("error", .str e.message), ("preview", preview s)]⟩

/-- Start and end of the stretch from the first `{` to the last `}`. -/
def braceSpan? (s : List Char) : Option (Nat × Nat) :=
  let start := (s.takeWhile (· ≠ '{')).length
  let stop := s.length - (s.reverse.takeWhile (· ≠ '}')).length
  if start < stop then some (start, stop) else none

def slice (s : List Char) (span : Nat × Nat) : List Char := (s.take span.2).drop span.1

/-- Reads a reply that is not blank and has no blanks around it. -/
def readTrimmed (s : List Char) : Reading :=
  match Json.decode (String.ofList s) with
  | .ok v => ⟨.ok v, []⟩
  | .error strict =>
    match braceSpan? s with
    | none => ⟨.error (.noJson none), [strictEvent strict, noJsonEvent s]⟩
    | some span =>
      match Json.decode (String.ofList (slice s span)) with
      | .ok v => ⟨.ok v, [strictEvent strict]⟩
      | .error e => ⟨.error (.noJson (some e)), [strictEvent strict, lenientEvent e s]⟩

def read (raw : Value) : Reading :=
  match raw with
  | .str text =>
    match Text.trimChars text.toList with
    | [] => ⟨.error .empty, [emptyEvent]⟩
    | s => readTrimmed s
  | v => ⟨.error (.notText v.typeName), []⟩

/-- Reads a reply that need not consist of characters. One that is not blank is encoded first, and if
that fails there is neither a result nor anything to report. -/
def readPoints (raw : List Text.Point) : Except Text.Unencodable Reading :=
  match Text.trimWhere Text.Point.isBlank raw with
  | [] => .ok ⟨.error .empty, [emptyEvent]⟩
  | s => (Text.characters s).map readTrimmed

end ScreenPlan.Reply
