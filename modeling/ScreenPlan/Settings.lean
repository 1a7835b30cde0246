import ScreenPlan.Decimal.Nearest
import ScreenPlan.Schema.Issue
import ScreenPlan.Text.Numeral
import ScreenPlan.Text.Phrase

/-!
# Settings

Settings come from explicit values and, where there is none, from environment variables; names may
be in any case. Text is read as a number or a switch where one is called for.
-/

namespace ScreenPlan

structure Positive where
  val : Nat
  pos : 0 < val := by decide
  deriving DecidableEq, Repr

structure Settings where
  logLevel : String := "INFO"
  jsonLogs : Bool := false
  enableCache : Bool := true
  cacheSize : Positive := ⟨100, by decide⟩
  cacheTtl : Positive := ⟨3600, by decide⟩
  maxRequestLength : Positive := ⟨10000, by decide⟩
  maxResponseSize : Positive := ⟨524288, by decide⟩
  importPath : String := "@/components/lib"
  deriving DecidableEq, Repr

namespace Settings

/-- Is it a 64-bit integer? -/
def isWord (n : Int) : Bool := decide (-Int.pow 2 63 ≤ n ∧ n < Int.pow 2 63)

/-- An integral double that is a 64-bit integer, the least of them left out. -/
def wholeNumber? (x : Float) : Option Int :=
  if x.floor == x && !x.isInf then
    let n := Binary.floor x
    if isWord n && decide (n ≠ -Int.pow 2 63) then some n else none
  else none

def readInteger (v : Value) : Checked Int :=
  match v with
  | .int n => .ok n
  | .bool b => .ok (if b then 1 else 0)
  | .float x =>
    if x.isNaN || x.isInf then Checked.refuse .notFinite
    else if x.floor == x then
      match wholeNumber? x with
      | some n => .ok n
      | none => Checked.refuse .integerTooLarge
    else Checked.refuse .notWhole
  | .str s | .foreign (.bytes s) =>
    match Text.Numeral.read s.toList with
    | .ok n => .ok n
    | .error .tooLong => Checked.refuse .integerTooLarge
    | .error .noInteger => Checked.refuse .notIntegerText
  | _ => Checked.refuse .notInteger

def readPositive (v : Value) : Checked Positive :=
  match readInteger v with
  | .error is => .error is
  | .ok n => if h : 0 < n.toNat then .ok ⟨n.toNat, h⟩ else Checked.refuse .notPositive

def switchText? (s : String) : Option Bool :=
  if s ∈ ["0", "off", "f", "false", "n", "no"] then some false
  else if s ∈ ["1", "on", "t", "true", "y", "yes"] then some true
  else none

/-- Only 64-bit integers are looked at. -/
def switchNumber (n : Int) : Checked Bool :=
  if n = 0 then .ok false
  else if n = 1 then .ok true
  else Checked.refuse (if isWord n then .notBooleanText else .notBoolean)

def readSwitch (v : Value) : Checked Bool :=
  match v with
  | .bool b => .ok b
  | .int n => switchNumber n
  | .float x =>
    match wholeNumber? x with
    | some n => switchNumber n
    | none => Checked.refuse .notBoolean
  | .str s | .foreign (.bytes s) =>
    match switchText? (Text.lower s) with
    | some b => .ok b
    | none => Checked.refuse .notBooleanText
  | _ => Checked.refuse .notBoolean

def variableStem : String := "uiplan_"

/-- Explicit values win. Of names that differ in case only, the first explicit one and the last
variable count. -/
def sources (environment : Table String) (explicit : Table Value) : Table Value :=
  Table.putAll (Table.ofPairs (environment.map fun (name, text) => (Text.lower name, Value.str text)))
    (explicit.reverse.map fun (name, v) => (variableStem ++ Text.lower name, v))

def field {α : Type} (source : Table Value) (name : String) (default : α) (read : Value → Checked α) :
    Checked α :=
  match source.get? (variableStem ++ name) with
  | none => .ok default
  | some v => Checked.within (.field name) (read v)

def read (environment : Table String) (explicit : Table Value) : Checked Settings :=
  let source := sources environment explicit
  let d : Settings := {}
  let logLevel := field source "log_level" d.logLevel Checked.text
  let jsonLogs := field source "json_logs" d.jsonLogs readSwitch
  let enableCache := field source "enable_cache" d.enableCache readSwitch
  let cacheSize := field source "cache_size" d.cacheSize readPositive
  let cacheTtl := field source "cache_ttl" d.cacheTtl readPositive
  let maxRequestLength := field source "max_request_length" d.maxRequestLength readPositive
  let maxResponseSize := field source "max_response_size" d.maxResponseSize readPositive
  let importPath := field source "import_path" d.importPath Checked.text
  match logLevel, jsonLogs, enableCache, cacheSize, cacheTtl, maxRequestLength, maxResponseSize,
    importPath with
  | .ok a, .ok b, .ok c, .ok d, .ok e, .ok f, .ok g, .ok h => .ok ⟨a, b, c, d, e, f, g, h⟩
  | a, b, c, d, e, f, g, h =>
    .error (Checked.issues a ++ Checked.issues b ++ Checked.issues c ++ Checked.issues d ++
      Checked.issues e ++ Checked.issues f ++ Checked.issues g ++ Checked.issues h)

def toTable (s : Settings) : Table Value :=
  [("log_level", .str s.logLevel), ("json_logs", .bool s.jsonLogs),
    ("enable_cache", .bool s.enableCache), ("cache_size", .int s.cacheSize.val),
    ("cache_ttl", .int s.cacheTtl.val), ("max_request_length", .int s.maxRequestLength.val),
    ("max_response_size", .int s.maxResponseSize.val), ("import_path", .str s.importPath)]

/-- Settings that are read once and kept; a failure is not kept. -/
def readOnce (kept : Option Settings) (environment : Table String) :
    Checked Settings × Option Settings :=
  match kept with
  | some s => (.ok s, kept)
  | none =>
    match read environment [] with
    | .ok s => (.ok s, some s)
    | .error is => (.error is, none)

end Settings
end ScreenPlan
