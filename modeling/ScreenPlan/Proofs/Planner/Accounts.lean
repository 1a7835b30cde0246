import ScreenPlan.Proofs.Planner.Failures
import ScreenPlan.Proofs.Planner.History
import ScreenPlan.Proofs.Telemetry.Metrics

/-!
# What a call is counted as

Every call that plans ends in one of six ways and is counted under that one. Beside the requests a planner counts its
lookups, its store counts hits and misses, and the service gets the prompts.
-/

namespace ScreenPlan

/-- Is the service asked before a request ends in this way? -/
def Status.asked : Status → Bool
  | .rejected | .cached => false
  | .completionError | .malformed | .invalid | .valid => true

theorem Status.label_inj {a b : Status} (same : a.label = b.label) : a = b := by
  cases a <;> cases b <;> first | rfl | exact absurd same (by decide)

namespace Planner

/-! ### How calls end -/

/-- The stored plan for a request that passes the screening. -/
def recalled? (settings : Settings) (request : Value) (previous : Option Plan) (s : Session) : Option Plan :=
  s.store.bind fun plans =>
    (screen settings request previous).1.toOption.bind fun message =>
      (PlanStore.key message previous).toOption.bind fun key => (plans.lookUp key s.clock).1

/-- The way in which a request ended, to judge by its answer and by whether there was a stored plan for it. That
something could not be written is none of the ways. -/
def statusOf (recalled : Bool) : Except Failure Outcome → Option Status
  | .error (.requestRejected _) => some .rejected
  | .error (.service _) => some .completionError
  | .error (.malformed _) => some .malformed
  | .error _ => none
  | .ok ⟨none, _⟩ => some .invalid
  | .ok ⟨some _, _⟩ => some (if recalled then .cached else .valid)

def ended? (settings : Settings) (service : Service) (request : Value) (previous : Option Plan) (s : Session) :
    Option Status :=
  statusOf (recalled? settings request previous s).isSome (plan settings service request previous s).1

/-- Rendering plans first, and that is what is counted. -/
def Move.ended? (settings : Settings) (s : Session) : Move → Option Status
  | .plan service request previous => Planner.ended? settings service request previous s
  | .render service request previous => Planner.ended? settings service request previous s
  | _ => none

def Move.plans : Move → Bool
  | .plan .. | .render .. => true
  | .explain .. | .wait _ => false

/-- A call to explain that is not rejected. -/
def Move.explains (settings : Settings) (s : Session) : Move → Bool
  | .explain service request about =>
    match (Planner.explain settings service request about s).1 with
    | .error (.requestRejected _) => false
    | _ => true
  | _ => false

/-- A request that passes the screening of a planner with a store and is not served from there. -/
def missed (settings : Settings) (request : Value) (previous : Option Plan) (s : Session) (status : Option Status) :
    Bool :=
  (screen settings request previous).1.toOption.isSome && s.store.isSome && decide (status ≠ some .cached)

def Move.misses (settings : Settings) (s : Session) : Move → Bool
  | .plan service request previous | .render service request previous =>
    missed settings request previous s (Planner.ended? settings service request previous s)
  | _ => false

/-- The plan to change or to explain can be written, and there is one to explain. -/
def Move.Serialisable : Move → Prop
  | .plan _ _ previous | .render _ _ previous => ∀ p, previous = some p → p.Writable
  | .explain _ _ about => ∃ p, about = some p ∧ p.Writable
  | .wait _ => True

/-! ### One planning request -/

/-- The hits that the store of a session has counted. -/
def hits (s : Session) : Nat := s.store.elim 0 Lru.hits

def misses (s : Session) : Nat := s.store.elim 0 Lru.misses

variable {settings : Settings} {service : Service} {request : Value} {message : String} {previous : Option Plan}
  {key : Option String} {s s' : Session} {ending : Ending}

theorem filed_figures (store : Option PlanStore) (key : Option String) (p : Plan) (now : Float) :
    (filed store key p now).elim 0 Lru.hits = store.elim 0 Lru.hits ∧
      (filed store key p now).elim 0 Lru.misses = store.elim 0 Lru.misses := by
  unfold filed
  split
  · exact Lru.set_figures _ _ _ _
  · exact ⟨rfl, rfl⟩

/-- What becomes of the accounts while the service is consulted: it is asked once, and nothing is counted. -/
structure Billed (s s' : Session) (ending : Ending) : Prop where
  status : statusOf false ending.answer = some ending.status
  asked : ending.status.asked = true
  prompts : s'.prompts.length = s.prompts.length + 1
  requests : s'.metrics.requests = s.metrics.requests
  durations : s'.metrics.durations = s.metrics.durations
  lookups : s'.metrics.lookups = s.metrics.lookups
  hits : hits s' = hits s
  misses : misses s' = misses s

theorem consulted_billed (writable : ∀ p, previous = some p → p.Writable)
    (course : Consulted settings service message previous key s ending s') : Billed s s' ending := by
  have one {prompt : String} : (s.prompts ++ [prompt]).length = s.prompts.length + 1 := List.length_append
  cases course with
  | unasked prompted => exact (not_fromPrevious writable (prompt_failure prompted)).elim
  | raised | malformed | invalid => exact ⟨rfl, rfl, one, rfl, rfl, rfl, rfl, rfl⟩
  | valid =>
    obtain ⟨hits, misses⟩ := filed_figures s.store key _ _
    exact ⟨rfl, rfl, one, rfl, rfl, rfl, hits, misses⟩

/-- What becomes of them while a request is handled, up to the request itself being counted. -/
structure Handled (settings : Settings) (request : Value) (previous : Option Plan) (s s' : Session)
    (ending : Ending) : Prop where
  status : statusOf (recalled? settings request previous s).isSome ending.answer = some ending.status
  prompts : s'.prompts.length = s.prompts.length + if ending.status.asked then 1 else 0
  requests : s'.metrics.requests = s.metrics.requests
  durations : s'.metrics.durations = s.metrics.durations
  found : s'.metrics.lookups.count "hit" = s.metrics.lookups.count "hit" + if ending.status = .cached then 1 else 0
  unfound : s'.metrics.lookups.count "miss" = s.metrics.lookups.count "miss" +
    if missed settings request previous s (some ending.status) then 1 else 0
  hits : hits s' = hits s + if ending.status = .cached then 1 else 0
  misses : misses s' = misses s + if missed settings request previous s (some ending.status) then 1 else 0

theorem ne_cached {status : Status} (asked : status.asked = true) : status ≠ .cached := by
  rintro rfl
  cases asked

section Stored
variable {plans : PlanStore}

theorem figures_stored (stored : s.store = some plans) : hits s = plans.hits ∧ misses s = plans.misses := by
  rw [hits, misses, stored]
  exact ⟨rfl, rfl⟩

/-- The store counts a lookup as the planner does. -/
theorem figures_lookUp (plans : PlanStore) (key : String) (now : Float) :
    (plans.lookUp key now).2.hits = plans.hits + (if (plans.lookUp key now).1.isSome then 1 else 0) ∧
      (plans.lookUp key now).2.misses = plans.misses + if (plans.lookUp key now).1.isSome then 0 else 1 :=
  Lru.get_figures plans key now

theorem recalled?_stored {key : String} (stored : s.store = some plans)
    (screened : (screen settings request previous).1 = .ok message)
    (keyed : PlanStore.key message previous = .ok key) :
    recalled? settings request previous s = (plans.lookUp key s.clock).1 := by
  rw [recalled?, stored, screened, Option.bind_some]
  show (PlanStore.key message previous).toOption.bind _ = _
  rw [keyed]
  rfl

theorem missed_cached : missed settings request previous s (some .cached) = false := by
  rw [missed, decide_eq_false (not_not_intro rfl), Bool.and_false]

theorem missed_asked {status : Status} (stored : s.store = some plans)
    (screened : (screen settings request previous).1 = .ok message) (other : status ≠ .cached) :
    missed settings request previous s (some status) = true := by
  have apart : some status ≠ some .cached := fun same => other (Option.some.inj same)
  rw [missed, screened, stored, decide_eq_true apart]
  rfl

theorem missed_unscreened {failure : Failure} (screened : (screen settings request previous).1 = .error failure)
    (status : Option Status) : missed settings request previous s status = false := by
  rw [missed, screened]
  rfl

theorem missed_storeless (unstored : s.store = none) (status : Option Status) :
    missed settings request previous s status = false := by
  rw [missed, unstored, Option.isSome_none, Bool.and_false, Bool.false_and]

end Stored

theorem attempted_handled (writable : ∀ p, previous = some p → p.Writable)
    (course : Attempted settings service request previous s ending s') :
    Handled settings request previous s s' ending := by
  cases course with
  | @screenedOut failure log screened =>
    rcases screen_failure screened with ⟨reason, rfl⟩ | fromPrevious
    · refine ⟨rfl, rfl, rfl, rfl, rfl, ?_, rfl, ?_⟩ <;> rw [missed_unscreened screened] <;> rfl
    · exact (not_fromPrevious writable fromPrevious).elim
  | keyless _ _ keyed => exact (not_fromPrevious writable (key_failure keyed)).elim
  | @found message key plans p log screened stored keyed hit =>
    -- Nothing but the lookup happens, here and in the store.
    obtain ⟨hits, misses⟩ := figures_lookUp plans key s.clock
    rw [hit] at hits misses
    refine ⟨?_, rfl, rfl, rfl, Family.count_bump _ _ _, ?_, ?_, ?_⟩
    · rw [recalled?_stored stored screened keyed, hit]
      rfl
    · rw [missed_cached]
      exact Family.count_bump _ _ _
    · rw [(figures_stored stored).1]
      exact hits
    · rw [(figures_stored stored).2, missed_cached]
      exact misses
  | @missed message key plans ending t log log' screened stored keyed miss consulted =>
    -- The lookup is counted before the service is asked, and nothing is counted after it.
    have billed := consulted_billed writable consulted
    obtain ⟨hits, misses⟩ := figures_lookUp plans key s.clock
    rw [miss] at hits misses
    have other := ne_cached billed.asked
    refine ⟨?_, ?_, billed.requests, billed.durations, ?_, ?_, ?_, ?_⟩
    · rw [recalled?_stored stored screened keyed, miss]
      exact billed.status
    · rw [billed.asked]
      exact billed.prompts
    · rw [if_neg other]
      exact (congrArg (Family.count · "hit") billed.lookups).trans (Family.count_bump _ _ _)
    · rw [missed_asked stored screened other]
      exact (congrArg (Family.count · "miss") billed.lookups).trans (Family.count_bump _ _ _)
    · rw [if_neg other, (figures_stored stored).1]
      exact billed.hits.trans hits
    · rw [missed_asked stored screened other, (figures_stored stored).2]
      exact billed.misses.trans misses
  | @storeless message ending t log log' screened unstored consulted =>
    have billed := consulted_billed writable consulted
    have other := ne_cached billed.asked
    refine ⟨?_, ?_, billed.requests, billed.durations, ?_, ?_, ?_, ?_⟩
    · rw [recalled?, unstored]
      exact billed.status
    · rw [billed.asked]
      exact billed.prompts
    · rw [if_neg other]
      exact congrArg (Family.count · "hit") billed.lookups
    · rw [missed_storeless unstored]
      exact congrArg (Family.count · "miss") billed.lookups
    · rw [if_neg other]
      exact billed.hits
    · rw [missed_storeless unstored]
      exact billed.misses

/-! ### One call -/

def Move.asks (settings : Settings) (s : Session) (move : Move) : Bool :=
  (move.ended? settings s).any Status.asked || move.explains settings s

/-- What a call enters in the accounts. -/
structure Entered (settings : Settings) (s : Session) (move : Move) : Prop where
  ended : (move.ended? settings s).isSome = move.plans
  requests : (move.after settings s).metrics.requests =
    (move.ended? settings s).elim s.metrics.requests fun status => s.metrics.requests.bump status.label
  durations : (move.after settings s).metrics.durations =
    if move.plans then s.metrics.durations.observe ((move.after settings s).clock - s.clock) else s.metrics.durations
  prompts : (move.after settings s).prompts.length = s.prompts.length + if move.asks settings s then 1 else 0
  found : (move.after settings s).metrics.lookups.count "hit" =
    s.metrics.lookups.count "hit" + if move.ended? settings s = some .cached then 1 else 0
  unfound : (move.after settings s).metrics.lookups.count "miss" =
    s.metrics.lookups.count "miss" + if move.misses settings s then 1 else 0
  hits : hits (move.after settings s) = hits s + if move.ended? settings s = some .cached then 1 else 0
  misses : misses (move.after settings s) = misses s + if move.misses settings s then 1 else 0

theorem Entered.total {move : Move} (entered : Entered settings s move) :
    (move.after settings s).metrics.requests.total = s.metrics.requests.total + if move.plans then 1 else 0 := by
  have ended := entered.ended
  rw [entered.requests, ← ended]
  cases move.ended? settings s with
  | none => rfl
  | some status => exact Family.total_bump _ _

theorem Entered.count {move : Move} (entered : Entered settings s move) (status : Status) :
    (move.after settings s).metrics.requests.count status.label =
      s.metrics.requests.count status.label + if decide (move.ended? settings s = some status) then 1 else 0 := by
  rw [entered.requests]
  cases move.ended? settings s with
  | none => rfl
  | some other =>
    have same : (other.label = status.label) ↔ some other = some status :=
      ⟨fun same => congrArg some (Status.label_inj same), fun same => congrArg Status.label (Option.some.inj same)⟩
    simp only [Option.elim_some, Family.count_bump, same, decide_eq_true_eq]

theorem plan_entered (writable : ∀ p, previous = some p → p.Writable) :
    Entered settings s (.plan service request previous) := by
  obtain ⟨ending, t, course, planned⟩ := plan_course settings service request previous s
  have handled := attempted_handled writable course
  have ended : (Move.plan service request previous).ended? settings s = some ending.status := by
    rw [Move.ended?, ended?, planned]
    exact handled.status
  have misses : (Move.plan service request previous).misses settings s =
      missed settings request previous s (some ending.status) := by
    rw [← ended]
    rfl
  have asks : (Move.plan service request previous).asks settings s = ending.status.asked := by
    rw [Move.asks, ended, Option.any_some]
    exact Bool.or_false _
  have cached : (some ending.status = some .cached) = (ending.status = .cached) := Option.some.injEq _ _
  constructor
  case ended => rw [ended]; rfl
  all_goals rw [Move.after, planned]
  case requests =>
    rw [ended]
    exact congrArg (Family.bump · _) handled.requests
  case durations => exact congrArg (Histogram.observe · _) handled.durations
  case prompts =>
    rw [asks]
    exact handled.prompts
  case found =>
    simp only [ended, cached]
    exact handled.found
  case unfound =>
    rw [misses]
    exact handled.unfound
  case hits =>
    simp only [ended, cached]
    exact handled.hits
  case misses =>
    rw [misses]
    exact handled.misses

theorem render_metrics (settings : Settings) (service : Service) (request : Value) (previous : Option Plan)
    (s : Session) : ∃ generations, (render settings service request previous s).2.metrics =
      { (plan settings service request previous s).2.metrics with generations := generations } := by
  unfold render
  rcases plan settings service request previous s with ⟨_ | ⟨_ | p, errors⟩, s'⟩
  · exact ⟨_, rfl⟩
  · exact ⟨_, rfl⟩
  · dsimp only
    cases Markup.generatePlan settings.importPath p <;> exact ⟨_, rfl⟩

theorem render_entered (entered : Entered settings s (.plan service request previous)) :
    Entered settings s (.render service request previous) := by
  obtain ⟨generations, metrics⟩ := render_metrics settings service request previous s
  have clock := render_clock settings service request previous s
  have prompts := render_prompts settings service request previous s
  have store := render_store settings service request previous s
  constructor
  case ended => exact entered.ended
  all_goals rw [Move.after]
  case requests =>
    rw [metrics]
    exact entered.requests
  case durations =>
    rw [metrics, clock]
    exact entered.durations
  case prompts =>
    rw [prompts]
    exact entered.prompts
  case found =>
    rw [metrics]
    exact entered.found
  case unfound =>
    rw [metrics]
    exact entered.unfound
  case hits =>
    rw [hits, store]
    exact entered.hits
  case misses =>
    rw [Planner.misses, store]
    exact entered.misses

/-- How a call to explain ends: rejected, or in whatever way once the service was asked. -/
inductive Explained (service : Service) (s : Session) : Except Failure String → Session → Prop
  | rejected {reason : String} {log : Log} : Explained service s (.error (.requestRejected reason)) { s with log := log }
  | asked {prompt : String} {answer : Except Failure String} {log : Log}
      (other : ∀ reason, answer ≠ .error (.requestRejected reason)) :
      Explained service s answer { (s.ask service prompt).2 with log := log }

theorem explain_course {p : Plan} (writable : p.Writable) :
    Explained service s (explain settings service request (some p) s).1
      (explain settings service request (some p) s).2 := by
  unfold explain
  cases screened : (screen settings request (some p)).1 with
  | error failure =>
    rcases screen_failure screened with ⟨reason, rfl⟩ | fromPrevious
    · simp only [screened]
      exact .rejected
    · exact (not_fromPrevious (fun q same => Option.some.inj same ▸ writable) fromPrevious).elim
  | ok message =>
    obtain ⟨text, written⟩ := Plan.indented_ok writable
    obtain ⟨prompt, prompted⟩ : ∃ prompt, Prompt.explainer message p = .ok prompt :=
      ⟨_, by rw [Prompt.explainer, written]; rfl⟩
    simp only [screened, prompted, Session.ask, Session.advance, Session.report]
    rcases (service prompt).reply with raised | reply
    · exact .asked fun reason same => by cases same
    · cases reply <;> exact .asked fun reason same => by cases same

/-- The service explains a plan that can be written, unless the request is rejected. -/
theorem explain_asks {p : Plan} (writable : p.Writable) :
    (explain settings service request (some p) s).2.prompts.length =
      s.prompts.length + if (Move.explain service request (some p)).explains settings s then 1 else 0 := by
  have course := @explain_course settings service request s p writable
  rw [Move.explains]
  generalize (explain settings service request (some p) s).1 = answer at course ⊢
  generalize (explain settings service request (some p) s).2 = s' at course ⊢
  cases course with
  | rejected => rfl
  | asked other =>
    refine List.length_append.trans ?_
    split
    · next reason => exact (other reason rfl).elim
    · rfl

theorem explain_entered {p : Plan} (writable : p.Writable) :
    Entered settings s (.explain service request (some p)) := by
  have metrics := explain_metrics settings service request (some p) s
  have store := explain_store settings service request (some p) s
  constructor
  case ended => rfl
  all_goals rw [Move.after]
  case requests => rw [metrics]; rfl
  case durations => rw [metrics]; rfl
  case prompts => exact explain_asks writable
  case found => rw [metrics]; rfl
  case unfound => rw [metrics]; rfl
  case hits => rw [hits, store]; rfl
  case misses => rw [misses, store]; rfl

theorem move_entered {move : Move} (serialisable : move.Serialisable) : Entered settings s move := by
  cases move with
  | plan service request previous => exact plan_entered serialisable
  | render service request previous => exact render_entered (plan_entered serialisable)
  | explain service request about =>
    obtain ⟨p, rfl, writable⟩ := serialisable
    exact explain_entered writable
  | wait seconds => exact ⟨rfl, rfl, rfl, rfl, rfl, rfl, rfl, rfl⟩

end Planner
end ScreenPlan
