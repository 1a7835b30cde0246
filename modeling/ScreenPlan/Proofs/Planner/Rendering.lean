import ScreenPlan.Proofs.Markup.Untyped
import ScreenPlan.Proofs.Planner.Failures

/-!
# Rendering what was planned

All that a planner accepts comes from JSON texts, so making a payload of it changes nothing, and the second audit,
the one before the code is written, finds what the first one found. Typed or not, the code is that of the plan.
-/

namespace ScreenPlan

/-- A plan of the grammar that holds JSON data is accepted as the candidate that it is. -/
theorem accept_data {p : Plan} (plan : Grammar.IsPlan p.data) (json : p.data.IsJson) : accept p.data = .ok p := by
  obtain ⟨q, read, accepted⟩ := accept_of_clean (Grammar.audit_eq_nil.mpr plan)
  have settled : p.toValue = p.data := by rw [Plan.toValue_eq_settled, Value.settled_of_isJson json]
  have form := Plan.data_of_read plan read Form.untouched
  rw [Plan.arranged_untouched, ← settled, Plan.form_toValue, settled] at form
  rw [accepted, Plan.data_inj form]

namespace Planner

variable {settings : Settings} {service : Service} {request : Value} {previous : Option Plan} {s s' : Session}
  {p : Plan} {outcome : Outcome}

theorem gives_isJson : Built.Gives (·.data.IsJson) := fun _ _ _ _ built => Json.isJson_of_said (said_of_built built)

/-- What a planning request is answered with is a plan of the grammar and JSON data. -/
theorem planned_data (sound : StoresPlans s.store) (data : Stores (·.data.IsJson) s.store)
    (answered : plan settings service request previous s = (.ok outcome, s')) (made : outcome.plan = some p) :
    Grammar.IsPlan p.data ∧ p.data.IsJson := by
  refine ⟨?_, plan_holds gives_isJson data answered made⟩
  obtain ⟨ending, t, course, planned⟩ := plan_course settings service request previous s
  obtain ⟨answer, rfl⟩ := Prod.mk.inj (planned.symm.trans answered)
  rcases attempted_outcome sound course answer with ⟨q, ⟨made', -, good⟩, -⟩ | ⟨none, -⟩
  · obtain rfl := Option.some.inj (made.symm.trans made')
    exact good
  · cases made.symm.trans none

/-! ### Code for an outcome -/

theorem render_of_planned {errors : List String}
    (planned : plan settings service request previous s = (.ok ⟨some p, errors⟩, s')) {code : String}
    (rendered : (render settings service request previous s).1 = .ok code) :
    ∃ g, Markup.generatePlan settings.importPath p = .ok g ∧ g.code = code ∧
      (render settings service request previous s).2.metrics = s'.metrics.recordGeneration g.outcome := by
  unfold render at rendered ⊢
  rw [planned] at rendered ⊢
  dsimp only at rendered ⊢
  cases made : Markup.generatePlan settings.importPath p with
  | error =>
    rw [made] at rendered
    cases rendered
  | ok g =>
    rw [made] at rendered
    exact ⟨g, rfl, Except.ok.inj rendered, rfl⟩

theorem render_ok (answered : (plan settings service request previous s).1 = .ok (.accepted p))
    (writable : p.Writable) : ∃ code, (render settings service request previous s).1 = .ok code := by
  have planned : plan settings service request previous s =
      (.ok ⟨some p, []⟩, (plan settings service request previous s).2) := Prod.ext answered rfl
  obtain ⟨g, made⟩ := Markup.generatePlan_ok writable settings.importPath
  exact ⟨g.code, render_of_generated made planned⟩

theorem render_accepted (sound : StoresPlans s.store) (data : Stores (·.data.IsJson) s.store) {code : String}
    (answered : (plan settings service request previous s).1 = .ok outcome) (valid : outcome.isValid = true)
    (rendered : (render settings service request previous s).1 = .ok code) :
    ∃ p, outcome.plan = some p ∧ Markup.renderPlan settings.importPath p = .ok code ∧
      (render settings service request previous s).2.metrics =
        (plan settings service request previous s).2.metrics.recordGeneration "rendered" := by
  obtain ⟨_ | p, errors⟩ := outcome
  · cases valid
  have planned : plan settings service request previous s =
      (.ok ⟨some p, errors⟩, (plan settings service request previous s).2) := Prod.ext answered rfl
  obtain ⟨plan, json⟩ := planned_data sound data planned rfl
  obtain ⟨g, made, rfl, counted⟩ := render_of_planned planned rendered
  obtain ⟨-, asCode, module⟩ := Markup.generate_accepted json (accept_data plan json) made
  refine ⟨p, rfl, module, ?_⟩
  rw [counted, Markup.Generated.outcome, if_pos asCode]

/-! ### Typed and untyped -/

/-- A JSON value that passes the audit is accepted, and if there is code for the accepted plan then the value itself,
rendered as it is, gives the same text: a module and never a stand-in. Whatever has happened since a planner began
without stored plans, the same holds of its valid outcomes, those from the store included: what is rendered without
a failure is the module of the plan and is counted as such. -/
theorem rendered_as_accepted :
    (∀ (importPath : String) (c : Value), c.IsJson → audit c = [] → ∃ p, accept c = .ok p ∧
      ∀ typed, Markup.generatePlan importPath p = .ok typed →
        Markup.generate importPath c = .ok typed ∧ Markup.Untyped.generate importPath c = .ok typed ∧
          typed.rendered = true ∧ Markup.Untyped.render importPath c = .ok typed.code ∧
          ∀ errors, typed.code ≠ Markup.diagnostic errors) ∧
    (∀ (settings : Settings) (start : Session), (∀ plans, start.store = some plans → plans.entries = []) →
      ∀ (moves : List Move) (service : Service) (request : Value) (previous : Option Plan) (outcome : Outcome)
        (code : String),
      let s := run settings moves start
      (plan settings service request previous s).1 = .ok outcome → outcome.isValid = true →
      (render settings service request previous s).1 = .ok code →
      ∃ p, outcome.plan = some p ∧ Markup.renderPlan settings.importPath p = .ok code ∧
        (∀ errors, code ≠ Markup.diagnostic errors) ∧
        (render settings service request previous s).2.metrics =
          (plan settings service request previous s).2.metrics.recordGeneration "rendered") := by
  constructor
  · intro importPath c json clean
    obtain ⟨p, -, accepted⟩ := accept_of_clean clean
    refine ⟨p, accepted, fun typed made => ?_⟩
    obtain ⟨same, asCode, module⟩ := Markup.generate_accepted json accepted made
    have untyped := same
    rw [Markup.Untyped.generate_eq] at untyped
    refine ⟨same, untyped, asCode, Markup.Untyped.render_of_generate clean untyped, ?_⟩
    exact Markup.renderPlan_ne_diagnostic module
  · intro settings start unfilled moves service request previous outcome code s answered valid rendered
    have empty := storesPlans_unfilled unfilled
    have data : Stores (·.data.IsJson) s.store := run_stores_holds gives_isJson (stores_unfilled unfilled) moves
    obtain ⟨p, planned, module, counted⟩ := render_accepted (run_storesPlans empty moves) data answered valid rendered
    exact ⟨p, planned, module, Markup.renderPlan_ne_diagnostic module, counted⟩

/-- The card without props, untyped and as the plan that it becomes, and a card that is planned and rendered. -/
theorem rendered_as_accepted_cards :
    (sparse.IsJson ∧ audit sparse = [] ∧ ∃ typed,
      Markup.generatePlan Markup.defaultImportPath sparsePlan = .ok typed ∧
      Markup.generate Markup.defaultImportPath sparse = .ok typed ∧
      Markup.Untyped.render Markup.defaultImportPath sparse = .ok typed.code ∧ typed.rendered = true) ∧
    let s := run {} [.wait 1.0] cardSession
    (∀ plans, cardSession.store = some plans → plans.entries = []) ∧
      (plan {} cardService (.str "a card") none s).1 = .ok (.accepted cardPlan) ∧ ∃ code,
        (render {} cardService (.str "a card") none s).1 = .ok code ∧
        Markup.renderPlan ({} : Settings).importPath cardPlan = .ok code ∧
        ∀ errors, code ≠ Markup.diagnostic errors := by
  constructor
  · have clean := (accept_eq_ok.mp accept_sparse).1
    obtain ⟨typed, made⟩ := Markup.generatePlan_ok (p := sparsePlan) ⟨_, rfl⟩ Markup.defaultImportPath
    obtain ⟨p, accepted, same⟩ := rendered_as_accepted.1 Markup.defaultImportPath sparse isJson_sparse clean
    obtain rfl := Except.ok.inj (accept_sparse.symm.trans accepted)
    obtain ⟨untyped, -, asCode, text, -⟩ := same typed made
    exact ⟨isJson_sparse, clean, typed, made, untyped, text, asCode⟩
  · intro s
    obtain ⟨code, rendered⟩ := render_ok cardService_answers ⟨_, rfl⟩
    obtain ⟨p, same, module, other, -⟩ := rendered_as_accepted.2 {} cardSession cardSession_unfilled [.wait 1.0]
      cardService (.str "a card") none _ code cardService_answers rfl rendered
    obtain rfl := Option.some.inj same
    exact ⟨cardSession_unfilled, cardService_answers, code, rendered, module, other⟩

end Planner
end ScreenPlan
