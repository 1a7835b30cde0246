import ScreenPlan.Cache.PlanStore
import ScreenPlan.Markup
import ScreenPlan.Prompt
import ScreenPlan.Reply
import ScreenPlan.Request
import ScreenPlan.Settings
import ScreenPlan.Telemetry.Metrics

/-!
# The planner

From a request to a plan: the request is screened, looked up among the stored plans, put to the
completion service, and the reply is read and audited. Only the service is outside; it is a
function from prompts to completions. All state is a session, and every call returns the next one.
-/

namespace ScreenPlan

/-- An exception of the completion service: its kind and its text. -/
structure Raised where
  kind : String
  message : String
  deriving DecidableEq, Repr

/-- What the service does with a prompt, and the seconds it takes. -/
structure Completion where
  delay : Float
  reply : Except Raised Value

abbrev Service := String → Completion

inductive Failure where
  | requestRejected (reason : String)
  | malformed (defect : Reply.Defect)
  | service (raised : Raised)
  | unreadable (issues : List Issue)
  | unwritable (reason : Unwritable)
  | notText (typeName : String)
  | noPlan

structure Session where
  /-- Seconds on the clock. -/
  clock : Float := 0.0
  log : Log := {}
  metrics : Metrics := {}
  store : Option PlanStore := none
  /-- The prompts put to the service, the latest one last. -/
  prompts : List String := []

namespace Session

def report (s : Session) (events : List Event) : Session := { s with log := s.log.reportAll events }

def enter (s : Session) (fields : Table Value) : Session := { s with log := s.log.enter fields }

def exit (s : Session) : Session := { s with log := s.log.exit }

def advance (s : Session) (seconds : Float) : Session := { s with clock := s.clock + seconds }

/-- Puts a prompt to the service. -/
def ask (s : Session) (service : Service) (prompt : String) : Except Raised Value × Session :=
  let completion := service prompt
  (completion.reply, { s.advance completion.delay with prompts := s.prompts ++ [prompt] })

end Session

namespace Planner

def logger : String := "uiplanner.agents.planner"

def initializedEvent (cached : Bool) : Event := ⟨logger, .info, "initialized", [("cache", .bool cached)]⟩

def rejectedEvent (reason : String) : Event :=
  ⟨logger, .warning, "request_rejected", [("reason", .str reason)]⟩

def hitEvent : Event := ⟨logger, .info, "cache_hit", []⟩

def requestEvent (prompt : String) (iterating : Bool) : Event :=
  ⟨logger, .info, "plan_request",
    [("prompt_length", .int prompt.length), ("iterating", .bool iterating)]⟩

def failedEvent (raised : Raised) : Event :=
  ⟨logger, .error, "completion_failed", [("error", .str raised.message)]⟩

def oversizeEvent (excess : Text.Oversize) : Event :=
  ⟨logger, .warning, "response_too_large", [("error", .str excess.message)]⟩

def invalidEvent (errors : List String) : Event :=
  ⟨logger, .warning, "plan_invalid", [("errors", .list (errors.map .str))]⟩

def validEvent (components : Nat) (seconds : Float) : Event :=
  ⟨logger, .info, "plan_valid",
    [("components", .int components), ("duration_ms", .float (seconds * 1000))]⟩

def explainEvent (prompt : String) : Event :=
  ⟨logger, .info, "explain_request", [("prompt_length", .int prompt.length)]⟩

/-- The trimmed request, if neither it nor the plan to change gives offence. -/
def screen (settings : Settings) (request : Value) (previous : Option Plan) :
    Except Failure String × List Event :=
  match Request.readMessage (some (.ofNat settings.maxRequestLength.val)) request with
  | .error issues =>
    let reason := (issues.head?.map fun i => i.misfit.message).getD ""
    (.error (.requestRejected reason), [rejectedEvent reason])
  | .ok message =>
    match previous.map Plan.compact with
    | none => (.ok message, [])
    | some (.error e) => (.error (.unwritable e), [])
    | some (.ok text) =>
      if Request.isInjection text then
        (.error (.requestRejected "Unsafe prompt detected in current plan"),
          [rejectedEvent "unsafe previous plan"])
      else (.ok message, [])

/-- Texts are measured before they are read. -/
def readReply (settings : Settings) (raw : Value) : Reply.Reading :=
  match raw with
  | .str text =>
    match Text.checkSize text (.ofNat settings.maxResponseSize.val) "Planner response" with
    | .error excess => ⟨.error (.oversize excess), [oversizeEvent excess]⟩
    | .ok _ => Reply.read raw
  | _ => Reply.read raw

/-- How a planning request ended and what it answers. -/
structure Ending where
  status : Status
  answer : Except Failure Outcome

/-- Judges a candidate and stores it if it makes a plan. The shape of a candidate without violations
is checked once more when it is read. -/
def judge (candidate : Value) (key : Option String) (startedAt : Float) (s : Session) :
    Ending × Session :=
  let violations := audit candidate
  let s := s.report [auditEvent violations]
  match violations with
  | [] =>
    match Plan.read candidate with
    | .error issues => (⟨.malformed, .error (.unreadable issues)⟩, s)
    | .ok plan =>
      let s := s.report [validEvent plan.components.length (s.clock - startedAt)]
      let store := match s.store, key with
        | some store, some key => some (store.store key plan s.clock)
        | store, _ => store
      (⟨.valid, .ok (.accepted plan)⟩, { s with store := store })
  | violations =>
    let errors := errorTexts violations
    let s := { s with metrics := s.metrics.addErrors (Float.ofNat errors.length) }
    (⟨.invalid, .ok (.rejected errors)⟩, s.report [invalidEvent errors])

/-- Puts the request to the service. -/
def consult (settings : Settings) (service : Service) (message : String) (previous : Option Plan)
    (key : Option String) (startedAt : Float) (s : Session) : Ending × Session :=
  match Prompt.planner message previous with
  | .error e => (⟨.rejected, .error (.unwritable e)⟩, s)
  | .ok prompt =>
    match (s.report [requestEvent prompt previous.isSome]).ask service prompt with
    | (.error raised, s) =>
      (⟨.completionError, .error (.service raised)⟩, s.report [failedEvent raised])
    | (.ok raw, s) =>
      let reading := readReply settings raw
      let s := s.report reading.events
      match reading.result with
      | .error defect => (⟨.malformed, .error (.malformed defect)⟩, s)
      | .ok candidate => judge candidate key startedAt s

/-- Looks the request up first, if plans are stored. -/
def resolve (settings : Settings) (service : Service) (message : String) (previous : Option Plan)
    (startedAt : Float) (s : Session) : Ending × Session :=
  match s.store with
  | none => consult settings service message previous none startedAt s
  | some store =>
    match PlanStore.key message previous with
    | .error e => (⟨.rejected, .error (.unwritable e)⟩, s)
    | .ok key =>
      let (found, store) := store.lookUp key s.clock
      let s := { s with store := some store, metrics := s.metrics.recordLookup found.isSome }
      match found with
      | some plan => (⟨.cached, .ok (.accepted plan)⟩, s.report [hitEvent])
      | none => consult settings service message previous (some key) startedAt s

/-- The scope around the handling of a request. -/
def requestScope (message : String) : Table Value :=
  [("request_id", .str (Digest.truncated (Digest.Algorithm.xxhash64.ofText message) 8))]

def attempt (settings : Settings) (service : Service) (request : Value) (previous : Option Plan)
    (s : Session) : Ending × Session :=
  let (screened, events) := screen settings request previous
  let s' := s.report events
  match screened with
  | .error failure => (⟨.rejected, .error failure⟩, s')
  | .ok message =>
    let (ending, s') := resolve settings service message previous s.clock (s'.enter (requestScope message))
    (ending, s'.exit)

/-- Every request is counted and timed, however it ends. -/
def plan (settings : Settings) (service : Service) (request : Value) (previous : Option Plan)
    (s : Session) : Except Failure Outcome × Session :=
  let (ending, s') := attempt settings service request previous s
  (ending.answer,
    { s' with metrics := s'.metrics.recordRequest ending.status.label (s'.clock - s.clock) })

/-- Code for the plan of a request, or a diagnostic if there is none. -/
def render (settings : Settings) (service : Service) (request : Value) (previous : Option Plan)
    (s : Session) : Except Failure String × Session :=
  match plan settings service request previous s with
  | (.error failure, s) => (.error failure, s)
  | (.ok ⟨none, errors⟩, s) => (.ok (Markup.diagnostic errors), s)
  | (.ok ⟨some p, _⟩, s) =>
    let s := s.report (Markup.planEvents p)
    match Markup.generatePlan settings.importPath p with
    | .error e => (.error (.unwritable e), s)
    | .ok g => (.ok g.code, { s with metrics := s.metrics.recordGeneration g.outcome })

/-- The service's words on why a plan fits a request. -/
def explain (settings : Settings) (service : Service) (request : Value) (about : Option Plan)
    (s : Session) : Except Failure String × Session :=
  let (screened, events) := screen settings request about
  let s := s.report events
  match screened, about with
  | .error failure, _ => (.error failure, s)
  | .ok _, none => (.error .noPlan, s)
  | .ok message, some p =>
    match Prompt.explainer message p with
    | .error e => (.error (.unwritable e), s)
    | .ok prompt =>
      match (s.report [explainEvent prompt]).ask service prompt with
      | (.error raised, s) => (.error (.service raised), s)
      | (.ok (.str text), s) => (.ok (Text.trim text), s)
      | (.ok v, s) => (.error (.notText v.typeName), s)

/-- A new session; a planner reports whether it stores plans. -/
def start (log : Log) (store : Option PlanStore) : Session :=
  { log := log.report (initializedEvent store.isSome), store := store }

/-- An empty store as the settings describe it. -/
def newStore (settings : Settings) : PlanStore :=
  { capacity := settings.cacheSize.val, capacity_pos := settings.cacheSize.pos
    ttl := some (.whole settings.cacheTtl.val) }

/-- A session as the settings ask for it. -/
def startWith (settings : Settings) : Except LevelError Session :=
  (({} : Log).configure settings.logLevel settings.jsonLogs).map fun log =>
    start log (if settings.enableCache then some (newStore settings) else none)

/-- The figures of the store that the settings describe. One that is not in use stays empty. -/
def storeStats (settings : Settings) (s : Session) : CacheStats :=
  Lru.stats (s.store.getD (newStore settings))

end Planner
end ScreenPlan
