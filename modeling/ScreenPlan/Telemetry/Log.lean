import ScreenPlan.Json.Value
import ScreenPlan.Telemetry.Record
import ScreenPlan.Text.Phrase

/-!
# Log

Events pass the level of their logger and become records that carry the context bound around them.
A scope remembers what each of its fields shadowed, so that leaving it restores the outer value.
Events of the package have settled fields; those of its host may be refused.
-/

namespace ScreenPlan

/-- A name that could stand for a level but stands for something else. -/
inductive LevelError where
  /-- A text. -/
  | unknown (level : String)
  /-- Neither a text nor a number. -/
  | unfit (shown : String)
  deriving DecidableEq, Repr

def LevelError.message : LevelError → String
  | .unknown level => "Unknown level: '" ++ level ++ "'"
  | .unfit shown => "Level not an integer or a valid string: " ++ shown

structure Event where
  logger : String
  level : Level
  name : String
  fields : Table Value := []

def Event.entries (e : Event) : Table Value := e.fields ++ [("event", .str e.name)]

/-- What a scope has shadowed: the outer value of each of its fields, if there was one. -/
abbrev Scope := List (String × Option Value)

structure Log where
  /-- The level of the package; zero leaves it to the root. -/
  threshold : Nat := 50
  structured : Bool := true
  context : Table Value := []
  scopes : List Scope := []
  records : List Record := []

namespace Log

def packageLogger : String := "uiplanner"

/-- The level that governs loggers outside the package. -/
def rootThreshold : Nat := 30

def inPackage (logger : String) : Bool :=
  decide (logger = packageLogger) || (packageLogger ++ ".").toList.isPrefixOf logger.toList

def thresholdOf (l : Log) (logger : String) : Nat :=
  if inPackage logger && l.threshold ≠ 0 then l.threshold else rootThreshold

/-- The format of plain records. Its name, and that of the table of styles, are looked up like
names of levels. -/
def basicFormat : String := "%(levelname)s:%(name)s:%(message)s"

/-- The formats of plain records by the style of their places. -/
def styles : String :=
  "\x7b'%': (<class 'logging.PercentStyle'>, '%(levelname)s:%(name)s:%(message)s'), " ++
    "'\x7b': (<class 'logging.StrFormatStyle'>, '\x7blevelname\x7d:\x7bname\x7d:\x7bmessage\x7d'), " ++
    "'$': (<class 'logging.StringTemplateStyle'>, " ++
    "'$\x7blevelname\x7d:$\x7bname\x7d:$\x7bmessage\x7d')\x7d"

/-- Level names may be in any case; any other name means `INFO`. -/
def levelNumber (name : String) : Except LevelError Nat :=
  match Text.upper name with
  | "DEBUG" => .ok 10
  | "WARNING" | "WARN" => .ok 30
  | "ERROR" => .ok 40
  | "CRITICAL" | "FATAL" => .ok 50
  | "NOTSET" => .ok 0
  | "BASIC_FORMAT" => .error (.unknown basicFormat)
  | "_STYLES" => .error (.unfit styles)
  | _ => .ok 20

def configure (l : Log) (levelName : String) (structured : Bool) : Except LevelError Log :=
  (levelNumber levelName).map fun n => { l with threshold := n, structured := structured }

def enter (l : Log) (fields : Table Value) : Log :=
  { l with
    context := l.context.putAll fields
    scopes := fields.map (fun f => (f.1, l.context.get? f.1)) :: l.scopes }

def restore (context : Table Value) (shadowed : String × Option Value) : Table Value :=
  match shadowed with
  | (key, some v) => context.put key v
  | (key, none) => context.erase key

def exit (l : Log) : Log :=
  match l.scopes with
  | [] => l
  | scope :: outer => { l with context := scope.foldl restore l.context, scopes := outer }

def passes (l : Log) (logger : String) (level : Level) : Bool :=
  decide (l.thresholdOf logger ≤ level.number)

/-- Fields of an event override the context. -/
def compose (l : Log) (logger : String) (level : Level) (entries : Table Value) : Record :=
  ⟨logger, level, l.context.putAll entries, l.structured⟩

def keep (l : Log) (r : Record) : Log := { l with records := l.records ++ [r] }

def report (l : Log) (e : Event) : Log :=
  if l.passes e.logger e.level then l.keep (l.compose e.logger e.level e.entries) else l

def reportAll (l : Log) (events : List Event) : Log := events.foldl report l

/-- Reports fields that a host made up, the event among them. -/
def submit (l : Log) (logger : String) (level : Level) (entries : Table Value) :
    Except RecordError Log :=
  if l.passes logger level then (l.compose logger level entries).settled.map l.keep else .ok l

end Log
end ScreenPlan
