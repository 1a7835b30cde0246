import ScreenPlan.Proofs.Planner.Accounts

/-!
# The accounts of a run

What calls enter one by one adds up over a run: requests by status, durations, prompts, lookups and the figures of the
store agree with the calls that were made and with one another.
-/

namespace ScreenPlan.Planner

variable {settings : Settings} {moves : List Move} {start : Session} {e : Session × Move}

/-- The moves of a run, each with the session that it meets. -/
def trace (settings : Settings) : List Move → Session → List (Session × Move)
  | [], _ => []
  | move :: moves, s => (s, move) :: trace settings moves (move.after settings s)

/-- The ways in which the calls of a run ended. -/
def endings (settings : Settings) (moves : List Move) (start : Session) : List Status :=
  (trace settings moves start).filterMap fun e => e.2.ended? settings e.1

theorem map_trace : (trace settings moves start).map Prod.snd = moves := by
  induction moves generalizing start with
  | nil => rfl
  | cons move moves ih => rw [trace, List.map_cons, ih]

theorem trace_entered (serialisable : ∀ move ∈ moves, move.Serialisable) (member : e ∈ trace settings moves start) :
    Entered settings e.1 e.2 := by
  have among : e.2 ∈ moves := by
    rw [← @map_trace settings moves start]
    exact List.mem_map_of_mem member
  exact move_entered (serialisable e.2 among)

/-- A figure that goes up by one with some of the moves counts these over a run. -/
theorem run_counts (figure : Session → Nat) (counted : Session × Move → Bool)
    (step : ∀ e ∈ trace settings moves start,
      figure (e.2.after settings e.1) = figure e.1 + if counted e then 1 else 0) :
    figure (run settings moves start) = figure start + (trace settings moves start).countP counted := by
  induction moves generalizing start with
  | nil => rfl
  | cons move moves ih =>
    rw [trace, List.forall_mem_cons] at step
    have first : figure (move.after settings start) = figure start + if counted (start, move) then 1 else 0 := step.1
    show figure (run settings moves (move.after settings start)) = _
    rw [ih step.2, first, trace, List.countP_cons]
    omega

theorem count_endings (status : Status) : (endings settings moves start).count status =
    (trace settings moves start).countP fun e => decide (e.2.ended? settings e.1 = some status) := by
  rw [endings, List.count_filterMap]
  exact List.countP_congr fun e _ => by rw [beq_iff_eq, decide_eq_true_eq]

/-- What the service is asked for is one of four endings or an explanation. -/
theorem asks_eq (settings : Settings) (s : Session) (move : Move) : (if move.asks settings s then 1 else 0) =
    (if decide (move.ended? settings s = some .completionError) then 1 else 0) +
      (if decide (move.ended? settings s = some .malformed) then 1 else 0) +
      (if decide (move.ended? settings s = some .invalid) then 1 else 0) +
      (if decide (move.ended? settings s = some .valid) then 1 else 0) +
      if move.explains settings s then 1 else 0 := by
  have planning (status : Option Status) : (if status.any Status.asked || false then 1 else 0) =
      (if decide (status = some .completionError) then 1 else 0) +
        (if decide (status = some .malformed) then 1 else 0) + (if decide (status = some .invalid) then 1 else 0) +
        (if decide (status = some .valid) then 1 else 0) + 0 := by
    rcases status with _ | status
    · rfl
    · cases status <;> rfl
  cases move with
  | plan | render => exact planning _
  | explain => exact (Nat.zero_add _).symm
  | wait => rfl

theorem countP_asks (calls : List (Session × Move)) : calls.countP (fun e => e.2.asks settings e.1) =
    calls.countP (fun e => decide (e.2.ended? settings e.1 = some .completionError)) +
      calls.countP (fun e => decide (e.2.ended? settings e.1 = some .malformed)) +
      calls.countP (fun e => decide (e.2.ended? settings e.1 = some .invalid)) +
      calls.countP (fun e => decide (e.2.ended? settings e.1 = some .valid)) +
      calls.countP fun e => e.2.explains settings e.1 := by
  induction calls with
  | nil => rfl
  | cons e calls ih =>
    have first := asks_eq settings e.1 e.2
    simp only [List.countP_cons]
    omega

/-- The clock stays finite all along a run. -/
def Timed (settings : Settings) (moves : List Move) (start : Session) : Prop :=
  ∀ before, before <+: moves → (run settings before start).clock.isFinite = true

theorem run_durations (regular : start.metrics.durations.Regular) (serialisable : ∀ move ∈ moves, move.Serialisable)
    (timed : Timed settings moves start) : (run settings moves start).metrics.durations.count =
      start.metrics.durations.count + moves.countP Move.plans := by
  induction moves generalizing start with
  | nil => rfl
  | cons move moves ih =>
    obtain ⟨first, later⟩ := List.forall_mem_cons.mp serialisable
    have durations := (@move_entered settings start move first).durations
    have timed' : Timed settings moves (move.after settings start) := by
      rintro before ⟨after, rfl⟩
      exact timed (move :: before) ⟨after, rfl⟩
    have began : start.clock.isFinite = true := timed [] List.nil_prefix
    have ended : (move.after settings start).clock.isFinite = true := timed' [] List.nil_prefix
    rw [List.countP_cons]
    show (run settings moves (move.after settings start)).metrics.durations.count = _
    cases plans : move.plans with
    | false =>
      rw [plans] at durations
      have durations : (move.after settings start).metrics.durations = start.metrics.durations := durations
      rw [ih (durations ▸ regular) later timed', durations]
      rfl
    | true =>
      rw [plans] at durations
      have durations : (move.after settings start).metrics.durations = start.metrics.durations.observe _ := durations
      rw [ih (durations ▸ Histogram.regular_observe regular _) later timed', durations,
        Histogram.count_observe regular (Doubles.isNaN_sub ended began), if_pos rfl]
      omega

/-- Nothing has been counted yet, and the service has not been asked. -/
structure Fresh (s : Session) : Prop where
  metrics : s.metrics = {}
  prompts : s.prompts = []
  hits : hits s = 0
  misses : misses s = 0

/-- The accounts at the end of a run. -/
structure Balanced (settings : Settings) (moves : List Move) (start : Session) : Prop where
  requests : (run settings moves start).metrics.requests.total = moves.countP Move.plans
  ended : (endings settings moves start).length = moves.countP Move.plans
  durations : Timed settings moves start →
    (run settings moves start).metrics.durations.count = moves.countP Move.plans
  statuses : ∀ status : Status, (run settings moves start).metrics.requests.count status.label =
    (endings settings moves start).count status
  prompts : (run settings moves start).prompts.length =
    (endings settings moves start).count .completionError + (endings settings moves start).count .malformed +
      (endings settings moves start).count .invalid + (endings settings moves start).count .valid +
      (trace settings moves start).countP fun e => e.2.explains settings e.1
  found : (run settings moves start).metrics.lookups.count "hit" = (endings settings moves start).count .cached
  hits : (storeStats settings (run settings moves start)).hits = .whole ((endings settings moves start).count .cached)
  unfound : (run settings moves start).metrics.lookups.count "miss" =
    (trace settings moves start).countP fun e => e.2.misses settings e.1
  misses : (storeStats settings (run settings moves start)).misses =
    .whole ((trace settings moves start).countP fun e => e.2.misses settings e.1)

theorem storeStats_eq (settings : Settings) (s : Session) :
    (storeStats settings s).hits = .whole (hits s) ∧ (storeStats settings s).misses = .whole (misses s) := by
  unfold storeStats hits misses
  cases s.store <;> exact ⟨rfl, rfl⟩

theorem run_balanced (fresh : Fresh start) (serialisable : ∀ move ∈ moves, move.Serialisable) :
    Balanced settings moves start := by
  have entered : ∀ e ∈ trace settings moves start, Entered settings e.1 e.2 :=
    fun e member => trace_entered serialisable member
  have counts (figure : Session → Nat) (counted : Session × Move → Bool) (zero : figure start = 0)
      (step : ∀ e, Entered settings e.1 e.2 →
        figure (e.2.after settings e.1) = figure e.1 + if counted e then 1 else 0) :
      figure (run settings moves start) = (trace settings moves start).countP counted := by
    rw [run_counts figure counted fun e member => step e (entered e member), zero, Nat.zero_add]
  have planning : (trace settings moves start).countP (fun e => e.2.plans) = moves.countP Move.plans := by
    have calls := @List.countP_map _ _ Move.plans Prod.snd (trace settings moves start)
    rw [map_trace] at calls
    exact calls.symm
  obtain ⟨metrics, prompts, hits, misses⟩ := fresh
  constructor
  case requests =>
    rw [← planning]
    exact counts (·.metrics.requests.total) _ (by rw [metrics]; rfl) fun e entry => entry.total
  case ended =>
    rw [← planning, endings, List.length_filterMap_eq_countP]
    exact List.countP_congr fun e member => by rw [(entered e member).ended]
  case durations =>
    intro timed
    rw [run_durations (by rw [metrics]; exact Histogram.regular_empty) serialisable timed, metrics]
    exact Nat.zero_add _
  case statuses =>
    intro status
    rw [count_endings]
    exact counts (·.metrics.requests.count status.label) _ (by rw [metrics]; rfl) fun e entry => entry.count status
  case prompts =>
    rw [count_endings, count_endings, count_endings, count_endings, ← countP_asks]
    exact counts (·.prompts.length) _ (by rw [prompts]; rfl) fun e entry => entry.prompts
  case found =>
    rw [count_endings]
    refine counts (·.metrics.lookups.count "hit") _ (by rw [metrics]; rfl) fun e entry => ?_
    simp only [decide_eq_true_eq]
    exact entry.found
  case hits =>
    rw [(storeStats_eq _ _).1, count_endings]
    refine congrArg (fun n : Nat => Quantity.whole n) (counts Planner.hits _ hits fun e entry => ?_)
    simp only [decide_eq_true_eq]
    exact entry.hits
  case unfound =>
    exact counts (·.metrics.lookups.count "miss") _ (by rw [metrics]; rfl) fun e entry => entry.unfound
  case misses =>
    rw [(storeStats_eq _ _).2]
    exact congrArg (fun n : Nat => Quantity.whole n) (counts Planner.misses _ misses fun e entry => entry.misses)

/-- Let a planner begin with nothing counted, without a store or with one of its own, and let it plan, render, explain
and wait in any order, with previous plans that can be written. Then every call to plan or to render is counted once,
under the one way in which it ended, and the service is asked once if it ended so after it was asked, as it is for an
explanation that is not rejected. Over the whole run the counted requests, the prompts, the counted lookups and the
figures of the store agree with the calls and with one another; the durations do too, on a clock that stays finite. -/
theorem accounts_balance {settings : Settings} {start : Session} (fresh : Fresh start) {moves : List Move}
    (serialisable : ∀ move ∈ moves, move.Serialisable) :
    (∀ before move after, moves = before ++ move :: after → Entered settings (run settings before start) move) ∧
      Balanced settings moves start := by
  refine ⟨?_, run_balanced fresh serialisable⟩
  rintro before move after rfl
  exact move_entered (serialisable move (List.mem_append_right _ List.mem_cons_self))

def cardCalls : List Move :=
  [.plan cardService (.str "a card") none, .wait 1.0, .render cardService (.str "a card") (some cardPlan),
    .explain cardService (.str "a card") (some cardPlan)]

/-- A card is planned, changed and explained: two requests are counted. -/
theorem accounts_balance_cards :
    Fresh cardSession ∧ (∀ move ∈ cardCalls, move.Serialisable) ∧
      (∀ before move after, cardCalls = before ++ move :: after →
        Entered {} (run {} before cardSession) move) ∧
      Balanced {} cardCalls cardSession ∧ (run {} cardCalls cardSession).metrics.requests.total = 2 := by
  have fresh : Fresh cardSession := ⟨rfl, rfl, rfl, rfl⟩
  have writable : cardPlan.Writable := ⟨_, rfl⟩
  have serialisable : ∀ move ∈ cardCalls, move.Serialisable := by
    simp only [cardCalls, List.forall_mem_cons, List.not_mem_nil, false_imp_iff, implies_true, and_true]
    refine ⟨?_, trivial, ?_, cardPlan, rfl, writable⟩
    · intro p same
      cases same
    · intro p same
      obtain rfl := Option.some.inj same
      exact writable
  obtain ⟨entered, balanced⟩ := @accounts_balance {} cardSession fresh cardCalls serialisable
  exact ⟨fresh, serialisable, entered, balanced, balanced.requests⟩

end ScreenPlan.Planner
