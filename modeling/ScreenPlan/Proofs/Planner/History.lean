import ScreenPlan.Proofs.Cache.Key
import ScreenPlan.Proofs.Planner.Screening

/-!
# The history of a run

The calls of a run that are answered with a plan, whether it comes from the store or from the service, and what
each of them does to the stored plans.
-/

namespace ScreenPlan.Planner

/-! ### Answered calls -/

/-- A call to plan or to render for which there was a plan. -/
structure Planned where
  message : String
  previous : Option Plan
  plan : Plan
  /-- Seconds on the clock when the plan was there. -/
  time : Float
  /-- Has the service been asked for it? -/
  fresh : Bool

def planned? (settings : Settings) (service : Service) (request : Value) (previous : Option Plan)
    (s : Session) : Option Planned :=
  match request, plan settings service request previous s with
  | .str raw, (.ok ⟨some p, _⟩, s') =>
    some ⟨Text.trim raw, previous, p, s'.clock, decide (s'.prompts ≠ s.prompts)⟩
  | _, _ => none

/-- Rendering plans first. -/
def Move.planned? (settings : Settings) (s : Session) : Move → Option Planned
  | .plan service request previous => Planner.planned? settings service request previous s
  | .render service request previous => Planner.planned? settings service request previous s
  | _ => none

/-- All calls of a run that were answered with a plan. -/
def history (settings : Settings) : List Move → Session → List Planned
  | [], _ => []
  | move :: moves, s => (move.planned? settings s).toList ++ history settings moves (move.after settings s)

/-- The trimmed request and the previous plan of a call, if they pass the screening. -/
def Move.call? (settings : Settings) : Move → Option (String × Option Plan)
  | .plan _ request previous => (screen settings request previous).1.toOption.map (·, previous)
  | .render _ request previous => (screen settings request previous).1.toOption.map (·, previous)
  | _ => none

def calls (settings : Settings) (moves : List Move) : List (String × Option Plan) :=
  moves.filterMap (Move.call? settings)

/-- All texts that are hashed over a run to find entries. -/
def hashed (settings : Settings) (moves : List Move) : List String :=
  (calls settings moves).flatMap fun call => PlanStore.hashed call.1 call.2

/-! ### What a call does to the stored plans -/

/-- What the stored plans become over a call, and what the call is answered with. -/
inductive Turn (s : Session) (plans : PlanStore) : Option Planned → PlanStore → Prop
  | idle : Turn s plans none plans
  | missed (key : String) : Turn s plans none (plans.lookUp key s.clock).2
  | recalled {c : Planned} {key : String} (keyed : PlanStore.key c.message c.previous = .ok key)
      (hit : (plans.lookUp key s.clock).1 = some c.plan) (stale : c.fresh = false) (time : c.time = s.clock) :
      Turn s plans (some c) (plans.lookUp key s.clock).2
  | stored {c : Planned} {key : String} (keyed : PlanStore.key c.message c.previous = .ok key)
      (fresh : c.fresh = true) : Turn s plans (some c) ((plans.lookUp key s.clock).2.store key c.plan c.time)

variable {settings : Settings} {service : Service} {request : Value} {previous : Option Plan}
  {s : Session} {plans : PlanStore}

theorem planned?_of_plan {raw : String} {p : Plan} {errors : List String} {s' : Session}
    (answered : plan settings service (.str raw) previous s = (.ok ⟨some p, errors⟩, s')) :
    planned? settings service (.str raw) previous s =
      some ⟨Text.trim raw, previous, p, s'.clock, decide (s'.prompts ≠ s.prompts)⟩ := by
  unfold planned?
  rw [answered]

theorem planned?_of_planless {answer : Except Failure Outcome} {s' : Session}
    (answered : plan settings service request previous s = (answer, s'))
    (planless : ∀ outcome, answer = .ok outcome → outcome.plan = none) :
    planned? settings service request previous s = none := by
  unfold planned?
  rw [answered]
  split
  · next same =>
    have planned := planless _ (Prod.mk.inj same).1
    cases planned
  · rfl

theorem plan_turn (settings : Settings) (service : Service) (request : Value) (previous : Option Plan)
    (stored : s.store = some plans) : ∃ plans', (plan settings service request previous s).2.store = some plans' ∧
    Turn s plans (planned? settings service request previous s) plans' := by
  obtain ⟨ending, s', course, answered⟩ := plan_course settings service request previous s
  rw [answered]
  cases course with
  | screenedOut | keyless =>
    rw [planned?_of_planless answered nofun]
    exact ⟨plans, stored, .idle⟩
  | @found message key plans' p log screened stored' keyed hit =>
    obtain rfl := Option.some.inj (stored.symm.trans stored')
    obtain ⟨⟨raw, rfl, rfl, -⟩, -⟩ := screen_eq_ok screened
    rw [planned?_of_plan answered]
    exact ⟨_, rfl, .recalled keyed hit (decide_eq_false (not_not_intro rfl)) rfl⟩
  | storeless screened unstored => cases stored.symm.trans unstored
  | @missed message key plans' _ s' log log' screened stored' keyed miss consulted =>
    obtain rfl := Option.some.inj (stored.symm.trans stored')
    obtain ⟨⟨raw, rfl, rfl, -⟩, -⟩ := screen_eq_ok screened
    cases consulted with
    | unasked | raised | malformed =>
      rw [planned?_of_planless answered nofun]
      exact ⟨_, rfl, .missed key⟩
    | invalid =>
      rw [planned?_of_planless answered fun _ same => Except.ok.inj same ▸ rfl]
      exact ⟨_, rfl, .missed key⟩
    | @valid prompt _ _ p _ =>
      -- The only way in which a plan comes from the service, and the prompts have grown by one.
      rw [planned?_of_plan answered]
      have asked : s.prompts ++ [prompt] ≠ s.prompts := by simp
      exact ⟨_, rfl, .stored keyed (decide_eq_true asked)⟩

theorem move_turn (settings : Settings) (move : Move) (stored : s.store = some plans) :
    ∃ plans', (move.after settings s).store = some plans' ∧ Turn s plans (move.planned? settings s) plans' := by
  cases move with
  | plan service request previous => exact plan_turn settings service request previous stored
  | render service request previous =>
    rw [Move.after, render_store]
    exact plan_turn settings service request previous stored
  | explain service request about =>
    rw [Move.after, explain_store]
    exact ⟨plans, stored, .idle⟩
  | wait seconds => exact ⟨plans, stored, .idle⟩

/-- A planner that stores no plans never does. -/
theorem plan_storeless (settings : Settings) (service : Service) (request : Value) (previous : Option Plan)
    (unstored : s.store = none) : (plan settings service request previous s).2.store = none := by
  obtain ⟨ending, s', course, answered⟩ := plan_course settings service request previous s
  rw [answered]
  cases course with
  | screenedOut => exact unstored
  | keyless _ stored | found _ stored | missed _ stored => cases unstored.symm.trans stored
  | storeless _ _ consulted =>
    cases consulted with
    | valid =>
      show filed s.store _ _ _ = none
      rw [unstored]
      rfl
    | _ => exact unstored

theorem after_storeless (settings : Settings) (move : Move) (unstored : s.store = none) :
    (move.after settings s).store = none := by
  cases move with
  | plan service request previous => exact plan_storeless settings service request previous unstored
  | render service request previous =>
    rw [Move.after, render_store]
    exact plan_storeless settings service request previous unstored
  | explain service request about =>
    rw [Move.after, explain_store]
    exact unstored
  | wait seconds => exact unstored

/-- What the turn of every move keeps holds of the store from then on. -/
theorem after_stores {P : PlanStore → Prop} (move : Move)
    (kept : ∀ plans plans', s.store = some plans → Turn s plans (move.planned? settings s) plans' → P plans → P plans')
    (holds : ∀ plans, s.store = some plans → P plans) :
    ∀ plans, (move.after settings s).store = some plans → P plans := by
  intro plans' stored'
  cases stored : s.store with
  | none =>
    rw [after_storeless settings move stored] at stored'
    cases stored'
  | some plans =>
    obtain ⟨_, same, turn⟩ := move_turn settings move stored
    obtain rfl := Option.some.inj (stored'.symm.trans same)
    exact kept plans _ stored turn (holds plans stored)

/-! ### Calls of which the answer is known -/

/-- A call that finds an entry is answered with it. -/
theorem planned?_of_hit {message key : String} {p : Plan} (stored : s.store = some plans)
    (screened : (screen settings request previous).1 = .ok message)
    (keyed : PlanStore.key message previous = .ok key) (hit : (plans.lookUp key s.clock).1 = some p) :
    planned? settings service request previous s = some ⟨message, previous, p, s.clock, false⟩ := by
  obtain ⟨ending, s', course, answered⟩ := plan_course settings service request previous s
  obtain ⟨⟨raw, rfl, rfl, -⟩, -⟩ := screen_eq_ok screened
  cases course with
  | screenedOut screened' => cases screened.symm.trans screened'
  | keyless screened' _ keyed' =>
    cases screened.symm.trans screened'
    cases keyed.symm.trans keyed'
  | found screened' stored' keyed' hit' =>
    obtain rfl := Option.some.inj (stored.symm.trans stored')
    obtain rfl := Except.ok.inj (screened.symm.trans screened')
    obtain rfl := Except.ok.inj (keyed.symm.trans keyed')
    obtain rfl := Option.some.inj (hit.symm.trans hit')
    rw [planned?_of_plan answered, decide_eq_false (not_not_intro rfl)]
  | missed screened' stored' keyed' miss =>
    obtain rfl := Option.some.inj (stored.symm.trans stored')
    obtain rfl := Except.ok.inj (screened.symm.trans screened')
    obtain rfl := Except.ok.inj (keyed.symm.trans keyed')
    cases hit.symm.trans miss
  | storeless _ unstored => cases stored.symm.trans unstored

/-- A call that finds none is answered with the plan in the reply. -/
theorem planned?_of_reply {message key prompt : String} {raw candidate : Value} {p : Plan}
    (stored : s.store = some plans) (screened : (screen settings request previous).1 = .ok message)
    (keyed : PlanStore.key message previous = .ok key) (miss : (plans.lookUp key s.clock).1 = none)
    (prompted : Prompt.planner message previous = .ok prompt) (reply : (service prompt).reply = .ok raw)
    (read : (readReply settings raw).result = .ok candidate) (right : audit candidate = [])
    (made : Plan.read candidate = .ok p) : planned? settings service request previous s =
      some ⟨message, previous, p, s.clock + (service prompt).delay, true⟩ := by
  obtain ⟨ending, s', course, answered⟩ := plan_course settings service request previous s
  obtain ⟨⟨raw, rfl, rfl, -⟩, -⟩ := screen_eq_ok screened
  cases course with
  | screenedOut screened' => cases screened.symm.trans screened'
  | keyless screened' _ keyed' =>
    cases screened.symm.trans screened'
    cases keyed.symm.trans keyed'
  | found screened' stored' keyed' hit =>
    obtain rfl := Option.some.inj (stored.symm.trans stored')
    obtain rfl := Except.ok.inj (screened.symm.trans screened')
    obtain rfl := Except.ok.inj (keyed.symm.trans keyed')
    cases miss.symm.trans hit
  | missed screened' _ _ _ consulted =>
    obtain rfl := Except.ok.inj (screened.symm.trans screened')
    rcases consulted_read prompted reply read consulted with ⟨q, log, -, made', rfl, rfl⟩ | ⟨wrong, -⟩
    · obtain rfl := Except.ok.inj (made.symm.trans made')
      have asked : decide (s.prompts ++ [prompt] ≠ s.prompts) = true := by simp
      rw [planned?_of_plan answered]
      exact congrArg (fun fresh => some (Planned.mk (Text.trim raw) previous p _ fresh)) asked
    · exact (wrong right).elim
  | storeless _ unstored => cases stored.symm.trans unstored

/-! ### Calls of a run -/

variable {move : Move} {moves : List Move} {m : Planned}

theorem eq_ok_of_toOption {ε α : Type} {x : Except ε α} {a : α} (some : x.toOption = .some a) : x = .ok a := by
  cases x with
  | error => cases some
  | ok => exact congrArg Except.ok (Option.some.inj some)

theorem screened_of_call {message : String} (call : move.call? settings = some (message, previous)) :
    ∃ service request, (screen settings request previous).1 = .ok message ∧
      ∀ s, move.planned? settings s = planned? settings service request previous s := by
  have screened {request : Value} {about : Option Plan}
      (call : (screen settings request about).1.toOption.map (·, about) = some (message, previous)) :
      about = previous ∧ (screen settings request previous).1 = .ok message := by
    obtain ⟨found, passed, same⟩ := Option.map_eq_some_iff.mp call
    obtain ⟨rfl, rfl⟩ := Prod.mk.inj same
    exact ⟨rfl, eq_ok_of_toOption passed⟩
  cases move with
  | plan service request about | render service request about =>
    obtain ⟨rfl, ok⟩ := screened call
    exact ⟨service, request, ok, fun s => rfl⟩
  | explain | wait => cases call

theorem planned?_some (planned : planned? settings service request previous s = some m) :
    (screen settings request previous).1 = .ok m.message ∧ m.previous = previous ∧
      m.time = (plan settings service request previous s).2.clock := by
  obtain ⟨ending, s', course, answered⟩ := plan_course settings service request previous s
  -- A request that is answered is a text, and its trimmed form is what was screened.
  have screened {message : String} (screened : (screen settings request previous).1 = .ok message) :
      (screen settings request previous).1 = .ok m.message ∧ m.previous = previous ∧
        m.time = (plan settings service request previous s).2.clock := by
    obtain ⟨⟨raw, rfl, rfl, -⟩, -⟩ := screen_eq_ok screened
    unfold planned? at planned
    split at planned
    · next same answered' =>
      obtain rfl := Value.str.inj same
      obtain rfl := Option.some.inj planned
      exact ⟨screened, rfl, by rw [answered']⟩
    · cases planned
  cases course with
  | screenedOut =>
    rw [planned?_of_planless answered nofun] at planned
    cases planned
  | keyless ok | found ok | missed ok | storeless ok => exact screened ok

theorem call_of_planned (planned : move.planned? settings s = some m) :
    move.call? settings = some (m.message, m.previous) := by
  cases move with
  | plan service request previous | render service request previous =>
    obtain ⟨screened, rfl, -⟩ := planned?_some planned
    rw [Move.call?, screened]
    rfl
  | explain | wait => cases planned

theorem time_of_planned (planned : move.planned? settings s = some m) : m.time = (move.after settings s).clock := by
  cases move with
  | plan service request previous => exact (planned?_some planned).2.2
  | render service request previous =>
    rw [Move.after, render_clock]
    exact (planned?_some planned).2.2
  | explain | wait => cases planned

theorem key_of_planned (stored : s.store = some plans) (planned : move.planned? settings s = some m) :
    ∃ key, PlanStore.key m.message m.previous = .ok key := by
  obtain ⟨plans', -, turn⟩ := move_turn settings move stored
  rw [planned] at turn
  cases turn with
  | recalled keyed | stored keyed => exact ⟨_, keyed⟩

theorem mem_history (stored : s.store = some plans) (member : m ∈ history settings moves s) :
    ∃ before move after, moves = before ++ move :: after ∧
      move.planned? settings (run settings before s) = some m ∧
      ∃ key, PlanStore.key m.message m.previous = .ok key := by
  induction moves generalizing s plans with
  | nil => cases member
  | cons move moves ih =>
    rcases List.mem_append.mp member with now | later
    · have planned := Option.mem_toList.mp now
      exact ⟨[], move, moves, rfl, planned, key_of_planned stored planned⟩
    · obtain ⟨next, stored', -⟩ := move_turn settings move stored
      obtain ⟨before, move', after, rfl, planned⟩ := ih stored' later
      exact ⟨move :: before, move', after, rfl, planned⟩

theorem time_of_history (stored : s.store = some plans) (member : m ∈ history settings moves s) :
    ∃ before, before <+: moves ∧ m.time = (run settings before s).clock := by
  obtain ⟨before, move, after, rfl, planned, -⟩ := mem_history stored member
  refine ⟨before ++ [move], ⟨after, by simp⟩, ?_⟩
  rw [time_of_planned planned, run, run, List.foldl_append, List.foldl_cons, List.foldl_nil]

theorem mem_hashed (call : move.call? settings = some (m.message, m.previous)) (member : move ∈ moves) :
    ∀ text ∈ PlanStore.hashed m.message m.previous, text ∈ hashed settings moves := by
  intro text among
  exact List.mem_flatMap.mpr ⟨_, List.mem_filterMap.mpr ⟨move, member, call⟩, among⟩

end ScreenPlan.Planner
