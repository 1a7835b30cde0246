import ScreenPlan.Proofs.Markup.StandIn
import ScreenPlan.Proofs.Planner.Balance
import ScreenPlan.Proofs.Planner.Rendering

/-!
# Code that is counted

Code that is made of a plan is counted as what it turns out to be, a module or a stand-in. The stand-in for a request
without a plan is returned uncounted, and by these alone the counter falls short of the code that is returned.
-/

namespace ScreenPlan

namespace Markup
variable {importPath code : String} {p : Plan} {g : Generated} {c : Value}

/-! ### Modules and stand-ins -/

/-- Does the code begin as a stand-in does? -/
def isStandIn (code : String) : Bool := "/* Invalid UI plan:\n".toList.isPrefixOf code.toList

theorem isStandIn_diagnostic (errors : List String) : isStandIn (diagnostic errors) = true := by
  unfold isStandIn diagnostic
  rw [List.isPrefixOf_iff_prefix, String.append_assoc, String.append_assoc, String.toList_append]
  apply List.prefix_append

theorem isStandIn_renderPlan (made : renderPlan importPath p = .ok code) : isStandIn code = false := by
  have first := head?_renderPlan made
  unfold isStandIn
  cases chars : code.toList with
  | nil => rfl
  | cons char chars =>
    obtain rfl : char = 'i' := by simpa [chars] using first
    rfl

/-- What comes out is the module of a plan or a stand-in, and is marked as what it is. -/
theorem generate_kind (made : generate importPath c = .ok g) :
    isStandIn g.code = !g.rendered ∧
      ((∃ p, renderPlan importPath p = .ok g.code) ∨ ∃ errors, g.code = diagnostic errors) := by
  unfold generate at made
  split at made
  · next p _ _ =>
    cases rendered : renderPlan importPath p with
    | error =>
      rw [rendered] at made
      cases made
    | ok code =>
      rw [rendered] at made
      obtain rfl := Except.ok.inj made
      exact ⟨isStandIn_renderPlan rendered, .inl ⟨p, rendered⟩⟩
  · obtain rfl := Except.ok.inj made
    exact ⟨isStandIn_diagnostic _, .inr ⟨_, rfl⟩⟩

theorem generatePlan_kind (made : generatePlan importPath p = .ok g) :
    isStandIn g.code = !g.rendered ∧
      ((∃ p, renderPlan importPath p = .ok g.code) ∨ ∃ errors, g.code = diagnostic errors) := by
  unfold generatePlan at made
  cases written : p.payload with
  | error =>
    rw [written] at made
    cases made
  | ok v =>
    rw [written] at made
    cases generated : generate importPath v with
    | error =>
      simp only [generated] at made
      cases made
    | ok g' =>
      simp only [generated] at made
      obtain rfl := Except.ok.inj made
      exact generate_kind generated

end Markup

namespace Planner

variable {settings : Settings} {service : Service} {request : Value} {previous : Option Plan} {s : Session}
  {move : Move} {moves : List Move} {start : Session}

/-! ### The code of a call -/

/-- The code that a call returns. -/
def Move.code? (settings : Settings) (s : Session) : Move → Option String
  | .render service request previous => (Planner.render settings service request previous s).1.toOption
  | .plan .. | .explain .. | .wait _ => none

/-- Does the call return code although there is no plan? -/
def Move.planless (settings : Settings) (s : Session) : Move → Bool
  | .render service request previous =>
    match (Planner.plan settings service request previous s).1 with
    | .ok ⟨none, _⟩ => true
    | _ => false
  | .plan .. | .explain .. | .wait _ => false

/-- The code that is returned over a run. -/
def codes (settings : Settings) (moves : List Move) (start : Session) : List String :=
  (trace settings moves start).filterMap fun e => e.2.code? settings e.1

theorem codes_cons : codes settings (move :: moves) s =
    (move.code? settings s).toList ++ codes settings moves (move.after settings s) := by
  unfold codes
  rw [trace, List.filterMap_cons]
  cases move.code? settings s <;> rfl

theorem consulted_generations {message : String} {key : Option String} {ending : Ending} {s s' : Session}
    (course : Consulted settings service message previous key s ending s') :
    s'.metrics.generations = s.metrics.generations := by
  cases course <;> rfl

theorem plan_generations (settings : Settings) (service : Service) (request : Value) (previous : Option Plan)
    (s : Session) : (plan settings service request previous s).2.metrics.generations = s.metrics.generations := by
  obtain ⟨ending, s', course, planned⟩ := plan_course settings service request previous s
  rw [planned]
  cases course with
  | screenedOut | keyless | found => rfl
  | missed _ _ _ _ consulted | storeless _ _ consulted =>
    have same := consulted_generations consulted
    exact same

/-- The account of some code: what was counted before and after, and how much of the code there was no plan for. -/
structure Tallied (importPath : String) (before : Family) (codes : List String) (planless : Nat) (after : Family) :
    Prop where
  modules : after.count "rendered" = before.count "rendered" + codes.countP (!Markup.isStandIn ·)
  standIns : after.count "diagnostic" + planless = before.count "diagnostic" + codes.countP Markup.isStandIn
  total : after.total + planless = before.total + codes.length
  kinds : ∀ code ∈ codes,
    (∃ p, Markup.renderPlan importPath p = .ok code) ∨ ∃ errors, code = Markup.diagnostic errors

variable {importPath : String} {before between after : Family} {first second : List String} {m n : Nat}

theorem Tallied.none : Tallied importPath before [] 0 before :=
  ⟨rfl, rfl, rfl, fun _ none => (List.not_mem_nil none).elim⟩

theorem Tallied.append (one : Tallied importPath before first m between)
    (other : Tallied importPath between second n after) :
    Tallied importPath before (first ++ second) (m + n) after := by
  obtain ⟨modules, standIns, total, kinds⟩ := one
  obtain ⟨modules', standIns', total', kinds'⟩ := other
  constructor
  case kinds =>
    intro code member
    rcases List.mem_append.mp member with early | late
    · exact kinds code early
    · exact kinds' code late
  all_goals
    simp only [List.countP_append, List.length_append]
    omega

theorem tallied_planless (errors : List String) : Tallied importPath before [Markup.diagnostic errors] 1 before := by
  have standIn := Markup.isStandIn_diagnostic errors
  constructor
  case kinds =>
    intro code member
    exact .inr ⟨errors, List.mem_singleton.mp member⟩
  all_goals simp [standIn]

theorem tallied_generated {g : Markup.Generated} {p : Plan} (made : Markup.generatePlan importPath p = .ok g) :
    Tallied importPath before [g.code] 0 (before.bump g.outcome) := by
  obtain ⟨standIn, kind⟩ := Markup.generatePlan_kind made
  constructor
  case kinds =>
    intro code member
    rw [List.mem_singleton.mp member]
    exact kind
  case total => exact Family.total_bump _ _
  all_goals
    rw [Family.count_bump, Markup.Generated.outcome]
    cases rendered : g.rendered <;> simp [standIn, rendered]

/-- One call: its code is counted unless there is no plan for it. -/
theorem move_tallied (settings : Settings) (s : Session) (move : Move) :
    Tallied settings.importPath s.metrics.generations (move.code? settings s).toList
      (if move.planless settings s then 1 else 0) (move.after settings s).metrics.generations := by
  cases move with
  | plan service request previous =>
    rw [Move.after, plan_generations]
    exact .none
  | explain service request about =>
    rw [Move.after, explain_metrics]
    exact .none
  | wait seconds => exact .none
  | render service request previous =>
    rw [Move.after, Move.code?, Move.planless, ← plan_generations settings service request previous s]
    rcases planned : plan settings service request previous s with ⟨failure | ⟨_ | p, errors⟩, s'⟩
    · rw [render_of_failed planned]
      exact .none
    · rw [render_of_planless planned]
      exact tallied_planless errors
    · unfold render
      rw [planned]
      dsimp only
      cases made : Markup.generatePlan settings.importPath p with
      | error => exact .none
      | ok g => exact tallied_generated made

/-! ### The code of a run -/

/-- How often code is returned although there is no plan. -/
def planless (settings : Settings) (moves : List Move) (start : Session) : Nat :=
  (trace settings moves start).countP fun e => e.2.planless settings e.1

theorem run_tallied (settings : Settings) (moves : List Move) (start : Session) :
    Tallied settings.importPath start.metrics.generations (codes settings moves start)
      (planless settings moves start) (run settings moves start).metrics.generations := by
  induction moves generalizing start with
  | nil => exact .none
  | cons move moves ih =>
    rw [codes_cons, planless, trace, List.countP_cons, Nat.add_comm]
    exact (move_tallied settings start move).append (ih (move.after settings start))

theorem run_fresh (fresh : start.metrics.generations = []) (moves : List Move) :
    (run settings moves start).metrics.generations.count "rendered" =
        (codes settings moves start).countP (!Markup.isStandIn ·) ∧
      (run settings moves start).metrics.generations.count "diagnostic" + planless settings moves start =
        (codes settings moves start).countP Markup.isStandIn ∧
      (run settings moves start).metrics.generations.total + planless settings moves start =
        (codes settings moves start).length := by
  obtain ⟨modules, standIns, total, -⟩ := run_tallied settings moves start
  rw [fresh] at modules standIns total
  have none : ∀ label, Family.count [] label = 0 := fun _ => rfl
  have nothing : Family.total [] = 0 := rfl
  rw [none, Nat.zero_add] at modules standIns
  rw [nothing, Nat.zero_add] at total
  exact ⟨modules, standIns, total⟩

/-- The generations that are counted over a run are the code that is returned. -/
structure Counted (settings : Settings) (moves : List Move) (start : Session) : Prop where
  total : (run settings moves start).metrics.generations.total = (codes settings moves start).length
  modules : (run settings moves start).metrics.generations.count "rendered" =
    (codes settings moves start).countP (!Markup.isStandIn ·)
  standIns : (run settings moves start).metrics.generations.count "diagnostic" =
    (codes settings moves start).countP Markup.isStandIn

theorem counted_iff (fresh : start.metrics.generations = []) :
    Counted settings moves start ↔ planless settings moves start = 0 := by
  obtain ⟨modules, standIns, total⟩ := @run_fresh settings start fresh moves
  constructor
  · intro counted
    have := counted.total
    omega
  · intro none
    exact ⟨by omega, modules, by omega⟩

/-! ### Plans that are rendered -/

/-- The second audit finds nothing in what a planner has planned or stored, so no stand-in is counted. -/
theorem after_undiagnosed (sound : StoresPlans s.store) (data : Stores (·.data.IsJson) s.store) (move : Move) :
    (move.after settings s).metrics.generations.count "diagnostic" = s.metrics.generations.count "diagnostic" := by
  cases move with
  | plan service request previous => rw [Move.after, plan_generations]
  | explain service request about => rw [Move.after, explain_metrics]
  | wait seconds => rfl
  | render service request previous =>
    rw [Move.after, ← plan_generations settings service request previous s]
    rcases planned : plan settings service request previous s with ⟨failure | ⟨_ | p, errors⟩, s'⟩
    · rw [render_of_failed planned]
    · rw [render_of_planless planned]
    · obtain ⟨plan, json⟩ := planned_data sound data planned rfl
      unfold render
      rw [planned]
      dsimp only
      cases made : Markup.generatePlan settings.importPath p with
      | error => rfl
      | ok g =>
        obtain ⟨-, asCode, -⟩ := Markup.generate_accepted json (accept_data plan json) made
        show (s'.metrics.generations.bump g.outcome).count "diagnostic" = _
        rw [Family.count_bump, Markup.Generated.outcome, if_pos asCode]
        rfl

theorem run_undiagnosed (unfilled : ∀ plans, start.store = some plans → plans.entries = []) (moves : List Move) :
    (run settings moves start).metrics.generations.count "diagnostic" =
      start.metrics.generations.count "diagnostic" := by
  have kept : (StoresPlans (run settings moves start).store ∧ Stores (·.data.IsJson) (run settings moves start).store) ∧
      (run settings moves start).metrics.generations.count "diagnostic" =
        start.metrics.generations.count "diagnostic" := by
    apply run_invariant (P := fun s => (StoresPlans s.store ∧ Stores (·.data.IsJson) s.store) ∧
      s.metrics.generations.count "diagnostic" = start.metrics.generations.count "diagnostic")
    · rintro s move ⟨⟨sound, data⟩, same⟩
      refine ⟨⟨after_storesPlans sound move, after_stores_holds gives_isJson data move⟩, ?_⟩
      rw [after_undiagnosed sound data, same]
    · exact ⟨⟨storesPlans_unfilled unfilled, stores_unfilled unfilled⟩, rfl⟩
  exact kept.2

/-- Let a planner begin with no generations counted, and let it plan, render, explain and wait in any order. All code
that it returns is the module of a plan or a stand-in. The modules are counted as rendered, one by one; the stand-ins
for requests without a plan are missing from the others and from the sum. So the counter agrees with the code exactly
if there was a plan whenever code was returned, and a planner that began without stored plans counts no stand-in. -/
theorem generations_fall_short {settings : Settings} {start : Session} (fresh : start.metrics.generations = [])
    (moves : List Move) :
    (∀ code ∈ codes settings moves start,
      (∃ p, Markup.renderPlan settings.importPath p = .ok code ∧ Markup.isStandIn code = false) ∨
        ∃ errors, code = Markup.diagnostic errors ∧ Markup.isStandIn code = true) ∧
    (run settings moves start).metrics.generations.count "rendered" =
      (codes settings moves start).countP (!Markup.isStandIn ·) ∧
    (run settings moves start).metrics.generations.count "diagnostic" + planless settings moves start =
      (codes settings moves start).countP Markup.isStandIn ∧
    (run settings moves start).metrics.generations.total + planless settings moves start =
      (codes settings moves start).length ∧
    (Counted settings moves start ↔ ∀ e ∈ trace settings moves start, e.2.planless settings e.1 = false) ∧
    ((∀ plans, start.store = some plans → plans.entries = []) →
      (run settings moves start).metrics.generations.count "diagnostic" = 0) := by
  obtain ⟨modules, standIns, total⟩ := @run_fresh settings start fresh moves
  refine ⟨fun code member => ?_, modules, standIns, total, ?_, fun unfilled => ?_⟩
  · rcases (run_tallied settings moves start).kinds code member with ⟨p, module⟩ | ⟨errors, rfl⟩
    · exact .inl ⟨p, module, Markup.isStandIn_renderPlan module⟩
    · exact .inr ⟨errors, rfl, Markup.isStandIn_diagnostic errors⟩
  · rw [counted_iff fresh, planless, List.countP_eq_zero]
    simp only [Bool.not_eq_true]
  · rw [run_undiagnosed unfilled, fresh]
    rfl

/-- A request that is refused after some time. -/
theorem refused_uncounted {errors : List String} {s' : Session} {seconds : Float}
    (refused : plan settings service request previous (s.advance seconds) = (.ok ⟨none, errors⟩, s')) :
    codes settings [.wait seconds, .render service request previous] s = [Markup.diagnostic errors] ∧
      planless settings [.wait seconds, .render service request previous] s = 1 := by
  have code : (Move.render service request previous).code? settings (s.advance seconds) =
      some (Markup.diagnostic errors) := by
    rw [Move.code?, render_of_planless refused]
    rfl
  have without : (Move.render service request previous).planless settings (s.advance seconds) = true := by
    rw [Move.planless, refused]
  constructor
  · rw [codes_cons, codes_cons]
    simp only [Move.after, code]
    rfl
  · rw [planless]
    simp only [trace, List.countP_cons, Move.after, without]
    rfl

def starredMoves : List Move := [.wait 1.0, .render Markup.starredService (.str "a card") none]

theorem starredMoves_uncounted :
    codes {} starredMoves cardSession = [Markup.diagnostic (errorTexts (audit Markup.starred))] ∧
      planless {} starredMoves cardSession = 1 := by
  obtain ⟨s', refused⟩ := Markup.starredService_refused
  have began : Markup.starredSession {} = cardSession.advance 1.0 := rfl
  rw [began] at refused
  exact @refused_uncounted {} Markup.starredService (.str "a card") none cardSession _ s' 1.0 refused

/-- The stand-in for a card that is refused is returned, and nothing is counted. -/
theorem generations_fall_short_starred : cardSession.metrics.generations = [] ∧
    (codes {} starredMoves cardSession).countP Markup.isStandIn = 1 ∧
    (run {} starredMoves cardSession).metrics.generations.total = 0 := by
  have fresh : cardSession.metrics.generations = [] := rfl
  obtain ⟨returned, uncounted⟩ := starredMoves_uncounted
  obtain ⟨-, -, -, total, -⟩ := @generations_fall_short {} cardSession fresh starredMoves
  rw [uncounted, returned, List.length_singleton] at total
  refine ⟨fresh, ?_, by omega⟩
  rw [returned, List.countP_cons_of_pos (Markup.isStandIn_diagnostic _), List.countP_nil]

theorem starred_not_counted : cardSession.metrics.generations = [] ∧ ¬ Counted {} starredMoves cardSession := by
  have fresh : cardSession.metrics.generations = [] := rfl
  refine ⟨fresh, ?_⟩
  rw [counted_iff fresh, starredMoves_uncounted.2]
  exact Nat.one_ne_zero

end Planner
end ScreenPlan
