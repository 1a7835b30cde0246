import ScreenPlan.Telemetry.Log

/-!
# Calls

How a host reports an event: it names a logger and a verb and hands over the event with its fields.
Fields travel by name, so that some names clash with the names of those who pass them on.
-/

namespace ScreenPlan

structure Call where
  logger : Value
  verb : Value
  event : Value
  fields : Table Value

/-- Why a call reports nothing. -/
inductive CallError where
  | verbNotText (typeName : String)
  | loggerNotText
  | unknownVerb (verb : String)
  /-- A field has the name of something that `callee` has been given already. -/
  | clash (callee name : String)
  | record (error : RecordError)
  deriving DecidableEq, Repr

def CallError.message : CallError → String
  | .verbNotText typeName => "attribute name must be string, not '" ++ typeName ++ "'"
  | .loggerNotText => "A logger name must be a string"
  | .unknownVerb verb => "'BoundLoggerFilteringAtNotset' object has no attribute '" ++ verb ++ "'"
  | .clash callee name => callee ++ " got multiple values for argument '" ++ name ++ "'"
  | .record e => e.message

namespace Call

/-- Verbs that only promise to report. -/
def promises : List String :=
  ["adebug", "ainfo", "amsg", "awarning", "awarn", "aerror", "aexception", "acritical", "afatal"]

/-- A verb below every level. -/
def belowAll : String := "notset"

def isKnown (verb : String) : Bool :=
  (Level.ofVerb? verb).isSome || decide (verb = belowAll) || promises.contains verb

/-- What a verb is called where its arguments do not fit. -/
def callee (verb : String) : String :=
  if verb = "exception" || verb = "aexception" then verb ++ "()"
  else
    "_make_filtering_bound_logger.<locals>.make_method.<locals>." ++
      (if promises.contains verb then "ameth()" else "meth()")

/-- What every verb but a promise hands its fields on to. -/
def relay : String := "BoundLoggerBase._proxy_to_logger()"

def checkNames (verb : String) (fields : Table Value) : Except CallError Unit :=
  match fields.names.find? fun name => name = "self" || name = "event" with
  | some name => .error (.clash (callee verb) name)
  | none =>
    if fields.has "method_name" && !promises.contains verb then .error (.clash relay "method_name")
    else .ok ()

def readVerb : Value → Except CallError String
  | .str verb => .ok verb
  | v => .error (.verbNotText v.typeName)

/-- Whatever counts as nothing names the root. -/
def readLogger : Value → Except CallError String
  | .str s => .ok s
  | v => if v.isPresent then .error .loggerNotText else .ok ""

/-- The fields, the event among them unless it is null. -/
def entries (c : Call) : Table Value :=
  match c.event with
  | .null => c.fields
  | event => c.fields ++ [("event", event)]

end Call

namespace Log

/-- A verb that only promises reports nothing, nor does one below every level. -/
def accept (l : Log) (c : Call) : Except CallError Log := do
  let verb ← Call.readVerb c.verb
  let logger ← Call.readLogger c.logger
  if !Call.isKnown verb then .error (.unknownVerb verb)
  Call.checkNames verb c.fields
  match Level.ofVerb? verb with
  | some level => (l.submit logger level c.entries).mapError .record
  | none => .ok l

end Log
end ScreenPlan
