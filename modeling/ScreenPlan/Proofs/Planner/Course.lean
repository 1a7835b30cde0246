import ScreenPlan.Planner
import ScreenPlan.Proofs.Plan.Acceptance

/-!
# The course of a request

Every way in which a request can end, with the session it ends in. The log is left open: what is
reported on the way decides nothing.
-/

namespace ScreenPlan.Planner

/-- The stored plans after a plan was made; nothing is stored without a key. -/
def filed (store : Option PlanStore) (key : Option String) (p : Plan) (now : Float) : Option PlanStore :=
  match store, key with
  | some store, some key => some (store.store key p now)
  | store, _ => store

/-- How putting a request to the service ends. -/
inductive Consulted (settings : Settings) (service : Service) (message : String)
    (previous : Option Plan) (key : Option String) (s : Session) : Ending → Session → Prop
  | unasked {e : Unwritable} {log : Log} (prompted : Prompt.planner message previous = .error e) :
      Consulted settings service message previous key s
        ⟨.rejected, .error (.unwritable e)⟩ { s with log := log }
  | raised {prompt : String} {raised : Raised} {log : Log}
      (prompted : Prompt.planner message previous = .ok prompt)
      (reply : (service prompt).reply = .error raised) :
      Consulted settings service message previous key s
        ⟨.completionError, .error (.service raised)⟩ { (s.ask service prompt).2 with log := log }
  | malformed {prompt : String} {raw : Value} {defect : Reply.Defect} {log : Log}
      (prompted : Prompt.planner message previous = .ok prompt)
      (reply : (service prompt).reply = .ok raw)
      (read : (readReply settings raw).result = .error defect) :
      Consulted settings service message previous key s
        ⟨.malformed, .error (.malformed defect)⟩ { (s.ask service prompt).2 with log := log }
  | invalid {prompt : String} {raw candidate : Value} {log : Log}
      (prompted : Prompt.planner message previous = .ok prompt)
      (reply : (service prompt).reply = .ok raw)
      (read : (readReply settings raw).result = .ok candidate)
      (wrong : audit candidate ≠ []) :
      Consulted settings service message previous key s
        ⟨.invalid, .ok (.rejected (errorTexts (audit candidate)))⟩
        { (s.ask service prompt).2 with
          log := log
          metrics := s.metrics.addErrors (Float.ofNat (errorTexts (audit candidate)).length) }
  | valid {prompt : String} {raw candidate : Value} {p : Plan} {log : Log}
      (prompted : Prompt.planner message previous = .ok prompt)
      (reply : (service prompt).reply = .ok raw)
      (read : (readReply settings raw).result = .ok candidate)
      (right : audit candidate = []) (made : Plan.read candidate = .ok p) :
      Consulted settings service message previous key s ⟨.valid, .ok (.accepted p)⟩
        { (s.ask service prompt).2 with
          log := log
          store := filed s.store key p (s.ask service prompt).2.clock }

/-- How the handling of a request ends, from the screening on. -/
inductive Attempted (settings : Settings) (service : Service) (request : Value)
    (previous : Option Plan) (s : Session) : Ending → Session → Prop
  | screenedOut {failure : Failure} {log : Log}
      (screened : (screen settings request previous).1 = .error failure) :
      Attempted settings service request previous s
        ⟨.rejected, .error failure⟩ { s with log := log }
  | keyless {message : String} {store : PlanStore} {e : Unwritable} {log : Log}
      (screened : (screen settings request previous).1 = .ok message)
      (stored : s.store = some store) (keyed : PlanStore.key message previous = .error e) :
      Attempted settings service request previous s
        ⟨.rejected, .error (.unwritable e)⟩ { s with log := log }
  | found {message key : String} {store : PlanStore} {p : Plan} {log : Log}
      (screened : (screen settings request previous).1 = .ok message)
      (stored : s.store = some store) (keyed : PlanStore.key message previous = .ok key)
      (hit : (store.lookUp key s.clock).1 = some p) :
      Attempted settings service request previous s ⟨.cached, .ok (.accepted p)⟩
        { s with
          log := log
          store := some (store.lookUp key s.clock).2
          metrics := s.metrics.recordLookup true }
  | missed {message key : String} {store : PlanStore} {ending : Ending} {s' : Session} {log log' : Log}
      (screened : (screen settings request previous).1 = .ok message)
      (stored : s.store = some store) (keyed : PlanStore.key message previous = .ok key)
      (miss : (store.lookUp key s.clock).1 = none)
      (consulted : Consulted settings service message previous (some key)
        { s with
          log := log
          store := some (store.lookUp key s.clock).2
          metrics := s.metrics.recordLookup false } ending s') :
      Attempted settings service request previous s ending { s' with log := log' }
  | storeless {message : String} {ending : Ending} {s' : Session} {log log' : Log}
      (screened : (screen settings request previous).1 = .ok message)
      (unstored : s.store = none)
      (consulted : Consulted settings service message previous none { s with log := log } ending s') :
      Attempted settings service request previous s ending { s' with log := log' }

/-- A candidate without violations can always be read, so nothing that is judged is unreadable. -/
theorem judge_valid {candidate : Value} (right : audit candidate = []) (key : Option String)
    (startedAt : Float) (s : Session) : ∃ p log, Plan.read candidate = .ok p ∧
      judge candidate key startedAt s =
        (⟨.valid, .ok (.accepted p)⟩, { s with log := log, store := filed s.store key p s.clock }) := by
  obtain ⟨p, made, -⟩ := Plan.read_ok (Grammar.audit_eq_nil.mp right)
  refine ⟨p, (judge candidate key startedAt s).2.log, made, ?_⟩
  unfold judge
  dsimp only
  rw [right, made]
  rfl

theorem judge_invalid {candidate : Value} (wrong : audit candidate ≠ []) (key : Option String)
    (startedAt : Float) (s : Session) : ∃ log, judge candidate key startedAt s =
      (⟨.invalid, .ok (.rejected (errorTexts (audit candidate)))⟩,
        { s with
          log := log
          metrics := s.metrics.addErrors (Float.ofNat (errorTexts (audit candidate)).length) }) := by
  refine ⟨(judge candidate key startedAt s).2.log, ?_⟩
  unfold judge
  dsimp only
  split
  · next right => exact (wrong right).elim
  · rfl

theorem consult_course (settings : Settings) (service : Service) (message : String)
    (previous : Option Plan) (key : Option String) (startedAt : Float) (s : Session) :
    Consulted settings service message previous key s
      (consult settings service message previous key startedAt s).1
      (consult settings service message previous key startedAt s).2 := by
  unfold consult
  cases prompted : Prompt.planner message previous with
  | error e => exact .unasked prompted
  | ok prompt =>
    cases reply : (service prompt).reply with
    | error raised =>
      simp only [Session.ask, reply]
      exact .raised prompted reply
    | ok raw =>
      simp only [Session.ask, reply]
      cases read : (readReply settings raw).result with
      | error defect => exact .malformed prompted reply read
      | ok candidate =>
        dsimp only
        by_cases right : audit candidate = []
        · obtain ⟨p, log, made, judged⟩ := judge_valid right key startedAt _
          rw [judged]
          exact .valid prompted reply read right made
        · obtain ⟨log, judged⟩ := judge_invalid right key startedAt _
          rw [judged]
          exact .invalid prompted reply read right

theorem attempt_course (settings : Settings) (service : Service) (request : Value)
    (previous : Option Plan) (s : Session) :
    Attempted settings service request previous s
      (attempt settings service request previous s).1
      (attempt settings service request previous s).2 := by
  unfold attempt
  cases screened : (screen settings request previous).1 with
  | error failure =>
    simp only [screened]
    exact .screenedOut screened
  | ok message =>
    simp only [screened]
    obtain ⟨clock, log, metrics, store, prompts⟩ := s
    unfold resolve
    dsimp only [Session.enter, Session.report]
    cases store with
    | none => exact .storeless screened rfl (consult_course _ _ _ _ _ _ _)
    | some store =>
      dsimp only
      cases keyed : PlanStore.key message previous with
      | error e => exact .keyless screened rfl keyed
      | ok key =>
        cases found : (store.lookUp key clock).1 with
        | some p =>
          simp only [found]
          exact .found screened rfl keyed found
        | none =>
          simp only [found]
          exact .missed screened rfl keyed found (consult_course _ _ _ _ _ _ _)

/-- A planning request is an attempt that is counted and timed. -/
theorem plan_course (settings : Settings) (service : Service) (request : Value)
    (previous : Option Plan) (s : Session) : ∃ ending s',
      Attempted settings service request previous s ending s' ∧
      plan settings service request previous s = (ending.answer,
        { s' with metrics := s'.metrics.recordRequest ending.status.label (s'.clock - s.clock) }) :=
  ⟨_, _, attempt_course settings service request previous s, rfl⟩

end ScreenPlan.Planner
