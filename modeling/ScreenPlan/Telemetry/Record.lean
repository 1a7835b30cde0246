import ScreenPlan.Text.Template

/-!
# Records

What becomes of an event that passes its level. A host may send fields with a meaning of their
own: positional arguments are filled into the event, and a field that claims to be a record has to
have a name. Fields are settled before a record is kept.
-/

namespace ScreenPlan

inductive Level where
  | debug
  | info
  | warning
  | error
  | critical
  deriving DecidableEq, Repr

namespace Level

def number : Level → Nat
  | .debug => 10
  | .info => 20
  | .warning => 30
  | .error => 40
  | .critical => 50

def name : Level → String
  | .debug => "debug"
  | .info => "info"
  | .warning => "warning"
  | .error => "error"
  | .critical => "critical"

/-- The level at which events are reported by the given verb. -/
def ofVerb? : String → Option Level
  | "debug" => some .debug
  | "info" | "msg" => some .info
  | "warning" | "warn" => some .warning
  | "error" | "exception" => some .error
  | "critical" | "fatal" => some .critical
  | _ => none

end Level

structure Record where
  logger : String
  level : Level
  fields : Table Value
  /-- Are the fields told apart, or is there but one line of text? -/
  structured : Bool

/-- Why an event makes no record. -/
inductive RecordError where
  /-- What should be a record has no name. -/
  | noName (typeName : String)
  /-- Positional arguments that cannot be counted. -/
  | noLength (typeName : String)
  /-- Positional arguments by name, but without a first one. -/
  | noFirst
  /-- Positional arguments, but no event. -/
  | noEvent
  /-- Only a text has places for positional arguments. -/
  | notTemplate (eventType argumentsType : String)
  | template (defect : Text.Template.Defect)
  /-- Lines of text cannot be joined to anything else. -/
  | notText (typeName : String)
  | tooDeep
  deriving DecidableEq, Repr

def RecordError.message : RecordError → String
  | .noName typeName => "'" ++ typeName ++ "' object has no attribute 'name'"
  | .noLength typeName => "object of type '" ++ typeName ++ "' has no len()"
  | .noFirst => "0"
  | .noEvent => "'event'"
  | .notTemplate event arguments =>
    "unsupported operand type(s) for %=: '" ++ event ++ "' and '" ++ arguments ++ "'"
  | .template defect => defect.message
  | .notText typeName => "can only concatenate str (not \"" ++ typeName ++ "\") to str"
  | .tooDeep => ""

namespace Record

/-- A logger without a name is the root. -/
def rootLogger : String := "root"

def loggerName (r : Record) : String := if r.logger.isEmpty then rootLogger else r.logger

def argumentsField : String := "positional_args"

/-- The argument of the event's places: a table that is the only item of a list stands for the
list. -/
def argument (arguments : Value) : Except RecordError Value :=
  match arguments with
  | .list [.object (f :: fs)] => .ok (.object (f :: fs))
  | .object [_] => .error .noFirst
  | .list _ | .object _ | .str _ | .foreign (.bytes _) => .ok arguments
  | v => .error (.noLength v.typeName)

/-- The event with the arguments in its places. -/
def filledEvent (event : Option Value) (arguments : Value) : Except RecordError Value :=
  match argument arguments, event with
  | .error e, _ => .error e
  | .ok _, none => .error .noEvent
  | .ok v, some (.str template) => ((Text.Template.fill template v).mapError .template).map .str
  | .ok v, some other => .error (.notTemplate other.typeName v.typeName)

/-- Positional arguments are used up, unless they are null; empty ones change nothing else. -/
def filled (fields : Table Value) : Except RecordError (Table Value) :=
  match fields.get? argumentsField with
  | none | some .null => .ok fields
  | some arguments =>
    if arguments.isPresent then
      (filledEvent (fields.get? "event") arguments).map fun event =>
        (fields.put "event" event).erase argumentsField
    else .ok (fields.erase argumentsField)

/-- A field that is joined to the line of text, if there is one. -/
def checkLine (fields : Table Value) (name : String) : Except RecordError Unit :=
  match fields.get? name with
  | none | some .null | some (.str _) | some (.foreign (.bytes _)) => .ok ()
  | some v => .error (.notText v.typeName)

/-- The record as it is kept. -/
def settled (r : Record) : Except RecordError Record := do
  match r.fields.get? "_record" with
  | none | some .null => .ok ()
  | some v => .error (.noName v.typeName)
  let fields ← filled r.fields
  if fields.any fun f => Text.tooDeep f.2 then .error .tooDeep
  if !r.structured then
    checkLine fields "stack"
    checkLine fields "exception"
  .ok { r with fields := fields }

/-- Names that no record shows: its time is kept apart from its fields, the others only say how it
is to be written. -/
def reserved : List String := ["timestamp", "exc_info", "stack_info"]

mutual
/-- Foreign values inside a field are displayed. -/
def writable : Value → Value
  | .list xs => .list (writableItems xs)
  | .object fs => .object (writableFields fs)
  | .foreign f => .str (Text.inContainer (.foreign f))
  | v => v

def writableItems : List Value → List Value
  | [] => []
  | x :: xs => writable x :: writableItems xs

def writableFields : List (String × Value) → List (String × Value)
  | [] => []
  | (k, v) :: fs => (k, writable v) :: writableFields fs
end

/-- A field of bytes is a text. -/
def fieldValue : Value → Value
  | .foreign (.bytes s) => .str s
  | v => writable v

/-- Level and logger are always the event's own. Outside structured mode only these two are told
apart. -/
def toValue (r : Record) : Value :=
  let own : Table Value := [("level", .str r.level.name), ("logger", .str r.loggerName)]
  if r.structured then
    .object (((r.fields.putAll own).filter fun f => decide (f.1 ∉ reserved)).map
      fun f => (f.1, fieldValue f.2))
  else .object own

end Record
end ScreenPlan
