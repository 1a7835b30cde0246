import ScreenPlan.Proofs.Planner.Run
import ScreenPlan.Proofs.Telemetry.Log

/-!
# Calls inside of scopes

A host enters and leaves scopes and calls the planner in between. Every call leaves the context as it found it, whatever
comes of it: what it binds for the time of a request is gone when it ends. So what is bound depends on the scopes of the
host alone.
-/

namespace ScreenPlan.Planner
open Log (Reported reported_reportAll Follows follows_start bound)

variable {settings : Settings}

/-! ### Calls -/

theorem judge_reported (candidate : Value) (key : Option String) (startedAt : Float) (s : Session) :
    Reported s.log (judge candidate key startedAt s).2.log := by
  have audited := reported_reportAll s.log [auditEvent (audit candidate)]
  unfold judge
  dsimp only
  split
  · split
    · exact audited
    · exact audited.trans (reported_reportAll _ _)
  · exact audited.trans (reported_reportAll _ _)

theorem consult_reported (service : Service) (message : String) (previous : Option Plan) (key : Option String)
    (startedAt : Float) (s : Session) :
    Reported s.log (consult settings service message previous key startedAt s).2.log := by
  unfold consult
  cases Prompt.planner message previous with
  | error e => exact .refl s.log
  | ok prompt =>
    have asked := reported_reportAll s.log [requestEvent prompt previous.isSome]
    simp only [Session.ask]
    cases (service prompt).reply with
    | error raised => exact asked.trans (reported_reportAll _ _)
    | ok raw =>
      have read := asked.trans (reported_reportAll _ (readReply settings raw).events)
      dsimp only
      cases (readReply settings raw).result with
      | error defect => exact read
      | ok candidate => exact read.trans (judge_reported candidate key startedAt _)

theorem resolve_reported (settings : Settings) (service : Service) (message : String) (previous : Option Plan)
    (startedAt : Float) (s : Session) :
    Reported s.log (resolve settings service message previous startedAt s).2.log := by
  unfold resolve
  cases s.store with
  | none => exact consult_reported service message previous none startedAt s
  | some store =>
    dsimp only
    cases PlanStore.key message previous with
    | error e => exact .refl s.log
    | ok key =>
      dsimp only
      cases (store.lookUp key s.clock).1 with
      | some p => exact reported_reportAll _ _
      | none => exact consult_reported service message previous (some key) startedAt _

/-- Handling a request opens a scope of its own, and leaves it however the request ends. -/
theorem attempt_reported (service : Service) (request : Value) (previous : Option Plan) (s : Session) :
    Reported s.log (attempt settings service request previous s).2.log := by
  unfold attempt
  obtain ⟨failure | message, events⟩ := screen settings request previous
  · exact reported_reportAll s.log events
  · have inside := resolve_reported settings service message previous s.clock
      ((s.report events).enter (requestScope message))
    exact (reported_reportAll s.log events).trans inside.exit

theorem render_reported (service : Service) (request : Value) (previous : Option Plan) (s : Session) :
    Reported s.log (render settings service request previous s).2.log := by
  have planned : Reported s.log (plan settings service request previous s).2.log :=
    attempt_reported service request previous s
  unfold render
  generalize plan settings service request previous s = made at planned
  obtain ⟨_ | ⟨_ | p, errors⟩, s'⟩ := made
  · exact planned
  · exact planned
  · have shown := planned.trans (reported_reportAll s'.log (Markup.planEvents p))
    dsimp only
    cases Markup.generatePlan settings.importPath p <;> exact shown

theorem explain_reported (service : Service) (request : Value) (about : Option Plan) (s : Session) :
    Reported s.log (explain settings service request about s).2.log := by
  unfold explain
  obtain ⟨failure | message, events⟩ := screen settings request about
  · exact reported_reportAll s.log events
  have screened := reported_reportAll s.log events
  cases about with
  | none => exact screened
  | some p =>
    dsimp only
    cases Prompt.explainer message p with
    | error e => exact screened
    | ok prompt =>
      have asked := screened.trans (reported_reportAll _ [explainEvent prompt])
      simp only [Session.ask]
      split
      all_goals
        next same =>
          obtain rfl := (Prod.mk.inj same).2
          exact asked

theorem after_reported (settings : Settings) (s : Session) (move : Move) :
    Reported s.log (move.after settings s).log := by
  cases move with
  | plan service request previous => exact attempt_reported service request previous s
  | render service request previous => exact render_reported service request previous s
  | explain service request about => exact explain_reported service request about s
  | wait seconds => exact .refl s.log

/-! ### Scopes around calls -/

/-- What a host does with a session. -/
inductive Step where
  | enter (fields : Table Value)
  | exit
  | call (move : Move)

def Step.after (settings : Settings) (s : Session) : Step → Session
  | .enter fields => s.enter fields
  | .exit => s.exit
  | .call move => move.after settings s

def steps (settings : Settings) (todo : List Step) (s : Session) : Session := todo.foldl (Step.after settings) s

/-- The fields of the scopes that are open afterwards, the innermost first. Without a scope there is none to leave. -/
def Step.opens (active : List (Table Value)) : Step → Option (List (Table Value))
  | .enter fields => some (fields :: active)
  | .exit =>
    match active with
    | [] => none
    | _ :: outer => some outer
  | .call _ => some active

def opened (active : List (Table Value)) (todo : List Step) : Option (List (Table Value)) :=
  todo.foldlM Step.opens active

theorem step_follows {start : Log} {s : Session} {active active' : List (Table Value)} {step : Step}
    (follows : Follows start s.log active) (opens : step.opens active = some active') :
    Follows start (step.after settings s).log active' := by
  cases step with
  | enter fields =>
    obtain rfl := Option.some.inj opens
    exact follows.enter fields
  | exit =>
    cases active with
    | nil => cases opens
    | cons fields outer =>
      obtain rfl := Option.some.inj opens
      exact follows.exit
  | call move =>
    obtain rfl := Option.some.inj opens
    exact follows.reported (after_reported settings s move)

theorem steps_follow {start : Log} {s : Session} {active active' : List (Table Value)} {todo : List Step}
    (follows : Follows start s.log active) (opens : opened active todo = some active') :
    Follows start (steps settings todo s).log active' := by
  induction todo generalizing s active with
  | nil =>
    obtain rfl := Option.some.inj opens
    exact follows
  | cons step todo ih =>
    rw [opened, List.foldlM_cons] at opens
    obtain ⟨between, first, later⟩ := Option.bind_eq_some_iff.mp opens
    exact ih (step_follows follows first) later

/-- Whatever a host does, as long as it leaves no scope that it has not entered: what is bound is what was bound at the
start with the fields of the open scopes over it, from the outermost to the innermost. Steps that leave every scope
they enter bring nothing in and take nothing away, and calls do not touch the context at all. -/
theorem context_follows_scopes (settings : Settings) (start : Session) {todo : List Step} {active : List (Table Value)}
    (opens : opened [] todo = some active) :
    let s := steps settings todo start
    (∀ key, s.log.context.get? key = (bound start.log.context active).get? key) ∧
      (∀ inner, opened [] inner = some [] → ∀ key,
        (steps settings inner s).log.context.get? key = s.log.context.get? key) ∧
      ∀ move : Move, (move.after settings s).log.context = s.log.context := by
  intro s
  have follows : Follows start.log s.log active := steps_follow (follows_start start.log) opens
  refine ⟨follows.context, fun inner closed => ?_, fun move => ?_⟩
  · have within : Follows s.log (steps settings inner s).log [] := steps_follow (follows_start s.log) closed
    exact within.context
  · obtain ⟨records, same⟩ := after_reported settings s move
    rw [same]

/-- A host that is bound to a tenant, with two stages of which the second ends. No call in them makes a plan. -/
def staged : Session := { log := { context := [("tenant", .str "a")] } }

def downService : Service := fun _ => ⟨0.5, .error ⟨"RuntimeError", "down"⟩⟩

def idleService : Service := fun _ => ⟨0.5, .ok (.str "no plan")⟩

def stages : List Step := [
  .enter [("tenant", .str "b"), ("stage", .int 1)], .call (.plan idleService (.str "") none),
  .enter [("stage", .int 2)], .call (.plan idleService (.str "a card") none),
  .call (.render downService (.str "a card") none), .exit]

theorem context_follows_scopes_staged :
    opened [] stages = some [[("tenant", .str "b"), ("stage", .int 1)]] ∧
      (steps {} stages staged).log.context.get? "tenant" = some (.str "b") ∧
      (steps {} stages staged).log.context.get? "stage" = some (.int 1) ∧
      (steps {} (stages ++ [.exit]) staged).log.context.get? "tenant" = some (.str "a") ∧
      (steps {} (stages ++ [.exit]) staged).log.context.get? "stage" = none := by
  have open_stage : opened [] stages = some [[("tenant", .str "b"), ("stage", .int 1)]] := rfl
  have closed : opened [] (stages ++ [.exit]) = some [] := rfl
  have during := (context_follows_scopes {} staged open_stage).1
  have after := (context_follows_scopes {} staged closed).1
  exact ⟨open_stage, during "tenant", during "stage", after "tenant", after "stage"⟩

end ScreenPlan.Planner
