import ScreenPlan.Proofs.Cache.Lru
import ScreenPlan.Proofs.Planner.Course

/-!
# Runs of a planner

A run is any sequence of calls and waits; every call may meet another service. What a planner hands
out over a run is read from a reply without violations, or was so when it was stored.
-/

namespace ScreenPlan.Planner

inductive Move where
  | plan (service : Service) (request : Value) (previous : Option Plan)
  | render (service : Service) (request : Value) (previous : Option Plan)
  | explain (service : Service) (request : Value) (about : Option Plan)
  | wait (seconds : Float)

/-- The session after a move; what the move answers is left aside. -/
def Move.after (settings : Settings) (s : Session) : Move → Session
  | .plan service request previous => (Planner.plan settings service request previous s).2
  | .render service request previous => (Planner.render settings service request previous s).2
  | .explain service request about => (Planner.explain settings service request about s).2
  | .wait seconds => s.advance seconds

def run (settings : Settings) (moves : List Move) (s : Session) : Session :=
  moves.foldl (Move.after settings) s

/-- Making code reports and counts, and does nothing else. -/
theorem render_session (settings : Settings) (service : Service) (request : Value)
    (previous : Option Plan) (s : Session) : ∃ log metrics,
    (render settings service request previous s).2 =
      { (plan settings service request previous s).2 with log := log, metrics := metrics } := by
  unfold render
  rcases plan settings service request previous s with ⟨_ | ⟨_ | p, errors⟩, s'⟩
  · exact ⟨_, _, rfl⟩
  · exact ⟨_, _, rfl⟩
  · dsimp only
    cases Markup.generatePlan settings.importPath p <;> exact ⟨_, _, rfl⟩

theorem render_store (settings : Settings) (service : Service) (request : Value)
    (previous : Option Plan) (s : Session) :
    (render settings service request previous s).2.store =
      (plan settings service request previous s).2.store := by
  obtain ⟨log, metrics, same⟩ := render_session settings service request previous s
  rw [same]

theorem render_prompts (settings : Settings) (service : Service) (request : Value)
    (previous : Option Plan) (s : Session) :
    (render settings service request previous s).2.prompts =
      (plan settings service request previous s).2.prompts := by
  obtain ⟨log, metrics, same⟩ := render_session settings service request previous s
  rw [same]

theorem render_clock (settings : Settings) (service : Service) (request : Value)
    (previous : Option Plan) (s : Session) :
    (render settings service request previous s).2.clock =
      (plan settings service request previous s).2.clock := by
  obtain ⟨log, metrics, same⟩ := render_session settings service request previous s
  rw [same]

theorem render_of_failed {settings : Settings} {service : Service} {request : Value} {previous : Option Plan}
    {s s' : Session} {failure : Failure}
    (planned : plan settings service request previous s = (.error failure, s')) :
    render settings service request previous s = (.error failure, s') := by
  rw [render, planned]

theorem render_of_planless {settings : Settings} {service : Service} {request : Value} {previous : Option Plan}
    {s s' : Session} {errors : List String}
    (planned : plan settings service request previous s = (.ok ⟨none, errors⟩, s')) :
    render settings service request previous s = (.ok (Markup.diagnostic errors), s') := by
  rw [render, planned]

/-- An explanation takes time and a prompt, and is not counted. -/
theorem explain_session (settings : Settings) (service : Service) (request : Value) (about : Option Plan) (s : Session) :
    ∃ log clock prompts,
      (explain settings service request about s).2 = { s with log := log, clock := clock, prompts := prompts } := by
  unfold explain
  rcases screen settings request about with ⟨_ | message, events⟩
  · exact ⟨_, _, _, rfl⟩
  cases about with
  | none => exact ⟨_, _, _, rfl⟩
  | some p =>
    dsimp only
    cases Prompt.explainer message p with
    | error e => exact ⟨_, _, _, rfl⟩
    | ok prompt =>
      simp only [Session.ask, Session.advance, Session.report]
      rcases (service prompt).reply with _ | v
      · exact ⟨_, _, _, rfl⟩
      · cases v <;> exact ⟨_, _, _, rfl⟩

theorem explain_store (settings : Settings) (service : Service) (request : Value)
    (about : Option Plan) (s : Session) : (explain settings service request about s).2.store = s.store := by
  obtain ⟨log, clock, prompts, same⟩ := explain_session settings service request about s
  rw [same]

theorem explain_metrics (settings : Settings) (service : Service) (request : Value)
    (about : Option Plan) (s : Session) : (explain settings service request about s).2.metrics = s.metrics := by
  obtain ⟨log, clock, prompts, same⟩ := explain_session settings service request about s
  rw [same]

/-! ### Stored plans -/

/-- Every stored plan is a plan by the grammar. -/
def StoresPlans (store : Option PlanStore) : Prop :=
  ∀ plans, store = some plans → ∀ e ∈ plans.entries, Grammar.IsPlan e.value.data

theorem storesPlans_unfilled {store : Option PlanStore}
    (unfilled : ∀ plans, store = some plans → plans.entries = []) : StoresPlans store := by
  intro plans stored
  rw [unfilled plans stored]
  exact List.forall_mem_nil _

theorem storesPlans_lookUp {plans : PlanStore} (sound : StoresPlans (some plans)) (key : String)
    (now : Float) : StoresPlans (some (plans.lookUp key now).2) := by
  intro _ same e he
  obtain rfl := Option.some.inj same
  exact sound plans rfl e (Lru.mem_entries_get he)

theorem storesPlans_filed {store : Option PlanStore} {p : Plan} (sound : StoresPlans store)
    (good : Grammar.IsPlan p.data) (key : Option String) (now : Float) :
    StoresPlans (filed store key p now) := by
  unfold filed
  split
  · next plans key =>
    intro _ same e he
    obtain rfl := Option.some.inj same
    rcases Lru.mem_entries_set he with old | new
    · exact sound plans rfl e old
    · rw [new]
      exact good
  · exact sound

theorem consulted_storesPlans {settings : Settings} {service : Service} {message : String}
    {previous : Option Plan} {key : Option String} {s s' : Session} {ending : Ending}
    (sound : StoresPlans s.store)
    (course : Consulted settings service message previous key s ending s') : StoresPlans s'.store := by
  cases course with
  | valid _ _ _ right made =>
    exact storesPlans_filed sound (Plan.isPlan_data (Grammar.audit_eq_nil.mp right) made) _ _
  | _ => exact sound

theorem attempted_storesPlans {settings : Settings} {service : Service} {request : Value}
    {previous : Option Plan} {s s' : Session} {ending : Ending} (sound : StoresPlans s.store)
    (course : Attempted settings service request previous s ending s') : StoresPlans s'.store := by
  cases course with
  | screenedOut => exact sound
  | keyless => exact sound
  | found _ stored => exact storesPlans_lookUp (stored ▸ sound) _ _
  | missed _ stored _ _ consulted =>
    have kept := consulted_storesPlans (storesPlans_lookUp (stored ▸ sound) _ _) consulted
    exact kept
  | storeless _ _ consulted =>
    have kept := consulted_storesPlans (by exact sound) consulted
    exact kept

/-- No move puts anything but plans into the store. -/
theorem after_storesPlans {settings : Settings} {s : Session} (sound : StoresPlans s.store)
    (move : Move) : StoresPlans (move.after settings s).store := by
  have planned : ∀ service request previous,
      StoresPlans (plan settings service request previous s).2.store := by
    intro service request previous
    obtain ⟨ending, s', course, planned⟩ := plan_course settings service request previous s
    have kept := attempted_storesPlans sound course
    rw [planned]
    exact kept
  cases move with
  | plan service request previous => exact planned service request previous
  | render service request previous =>
    rw [Move.after, render_store]
    exact planned service request previous
  | explain service request about =>
    rw [Move.after, explain_store]
    exact sound
  | wait seconds => exact sound

/-- What every move keeps is kept over a run. -/
theorem run_invariant {settings : Settings} {P : Session → Prop} (step : ∀ s move, P s → P (Move.after settings s move))
    {s : Session} (holds : P s) (moves : List Move) : P (run settings moves s) := by
  induction moves generalizing s with
  | nil => exact holds
  | cons move moves ih => exact ih (step s move holds)

theorem run_storesPlans {settings : Settings} {s : Session} (sound : StoresPlans s.store)
    (moves : List Move) : StoresPlans (run settings moves s).store := by
  apply run_invariant (P := fun s => StoresPlans s.store) _ sound moves
  intro s move sound
  exact after_storesPlans sound move

end ScreenPlan.Planner
