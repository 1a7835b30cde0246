import ScreenPlan.Proofs.Cache.Operation
import ScreenPlan.Proofs.Planner.Accounts
import ScreenPlan.Proofs.Planner.Recall

/-!
# What failed calls leave alone

A call that fails to plan may have looked for a stored plan first. Beyond that it leaves no trace in the store: the
entries, what they hold and their order stay, unless the one that was looked for has expired. Rendering may also fail
later, once there is a plan; that plan is stored.
-/

namespace ScreenPlan

/-! ### Lookups without an answer -/

namespace Lru
variable {α : Type} {c : Lru α} {key : String} {now : Float} {e : Entry α}

/-- What is left after a lookup that finds nothing: the miss is counted, and an entry that has expired is gone. -/
inductive Swept (c : Lru α) (key : String) (now : Float) : Lru α → Prop
  | absent (unknown : ∀ e ∈ c.entries, e.digest ≠ c.digestOf key) :
      Swept c key now { c with misses := c.misses + 1 }
  | lapsed {before after : List (Entry α)} {e : Entry α} (split : c.entries = before ++ e :: after)
      (own : e.digest = c.digestOf key) (others : ∀ other ∈ before ++ after, other.digest ≠ c.digestOf key)
      (old : c.expired now e = true) :
      Swept c key now
        { c with entries := before ++ after, size := (before ++ after).length, misses := c.misses + 1 }

/-- Where digests are distinct, the other entries are those before and behind the one that is found. -/
theorem split_of_find? (distinct : (c.entries.map Entry.digest).Nodup) (found : c.find? key = some e) :
    ∃ before after, c.entries = before ++ e :: after ∧ c.others key = before ++ after := by
  obtain ⟨member, digest⟩ := mem_of_find? found
  obtain ⟨before, after, split⟩ := List.append_of_mem member
  refine ⟨before, after, split, ?_⟩
  rw [split, List.map_append, List.map_cons, List.nodup_middle, ← List.map_append, List.nodup_cons] at distinct
  have elsewhere : ∀ other ∈ before ++ after, decide (other.digest ≠ c.digestOf key) = true := by
    intro other among
    refine decide_eq_true fun same => distinct.1 ?_
    rw [digest, ← same]
    exact List.mem_map_of_mem among
  rw [others, split, List.filter_append, List.filter_cons, if_neg (by simp [digest]), ← List.filter_append,
    List.filter_eq_self.mpr elsewhere]

theorem swept_get (regular : Regular c) (missed : (c.get key now).1 = none) : Swept c key now (c.get key now).2 := by
  have lookup := get_lookup c key now
  rw [missed] at lookup
  generalize (c.get key now).2 = c' at lookup ⊢
  cases lookup with
  | absent unknown =>
    refine .absent fun e member same => ?_
    exact List.find?_eq_none.mp unknown e member (decide_eq_true same)
  | @lapsed e found old =>
    obtain ⟨before, after, split, others⟩ := split_of_find? regular.distinct found
    rw [others]
    refine .lapsed split (mem_of_find? found).2 (fun other among => ?_) old
    rw [← others] at among
    exact (mem_others.mp among).2

theorem Swept.misses {c' : Lru α} (swept : Swept c key now c') : c'.misses = c.misses + 1 := by
  cases swept <;> rfl

theorem Swept.mem {c' : Lru α} (swept : Swept c key now c') (member : e ∈ c'.entries) : e ∈ c.entries := by
  cases swept with
  | absent => exact member
  | lapsed split =>
    rw [split]
    exact List.mem_append.mpr ((List.mem_append.mp member).imp_right (List.mem_cons_of_mem _))

end Lru

namespace Planner

variable {settings : Settings} {service : Service} {request : Value} {previous : Option Plan} {s : Session}
  {move : Move} {plans plans' : PlanStore} {c? : Option Planned}

/-! ### Regular stores -/

theorem turn_regular (regular : Lru.Regular plans) (turn : Turn s plans c? plans') : Lru.Regular plans' := by
  cases turn with
  | idle => exact regular
  | missed | recalled => exact Lru.regular_get regular _ _
  | stored => exact Lru.regular_set (Lru.regular_get regular _ _) _ _ _

def StoresRegularly (store : Option PlanStore) : Prop := ∀ plans, store = some plans → Lru.Regular plans

theorem after_storesRegularly (regular : StoresRegularly s.store) (move : Move) :
    StoresRegularly (move.after settings s).store :=
  after_stores move (fun _ _ _ turn regular => turn_regular regular turn) regular

theorem run_storesRegularly (regular : StoresRegularly s.store) (moves : List Move) :
    StoresRegularly (run settings moves s).store := by
  apply run_invariant (P := fun s => StoresRegularly s.store) _ regular moves
  intro s move regular
  exact after_storesRegularly regular move

/-! ### Calls that fail -/

def raised? {α : Type} : Except Failure α → Option Failure
  | .error failure => some failure
  | .ok _ => none

def Move.raised? (settings : Settings) (s : Session) : Move → Option Failure
  | .plan service request previous => Planner.raised? (Planner.plan settings service request previous s).1
  | .render service request previous => Planner.raised? (Planner.render settings service request previous s).1
  | .explain .. | .wait _ => none

/-- The call raises a failure or has an outcome without a plan. This stays folded, since unfolding it over a run
evaluates the run. -/
@[irreducible] def Move.Fails (settings : Settings) (s : Session) : Move → Prop
  | .plan service request previous => planOf (Planner.plan settings service request previous s).1 = none
  | .render service request previous =>
    (∃ failure, (Planner.render settings service request previous s).1 = .error failure) ∨
      planOf (Planner.plan settings service request previous s).1 = none
  | .explain .. | .wait _ => False

/-- What becomes of the stored plans over a call that fails. -/
structure Spared (settings : Settings) (s : Session) (move : Move) : Prop where
  rejected : ∀ reason, move.raised? settings s = some (.requestRejected reason) →
    (move.after settings s).store = s.store
  unreached : move.call? settings = none ∨ s.store = none → (move.after settings s).store = s.store
  swept : ∀ message previous plans, move.call? settings = some (message, previous) → s.store = some plans →
    ∃ key plans', PlanStore.key message previous = .ok key ∧ (move.after settings s).store = some plans' ∧
      Lru.Swept plans key s.clock plans'
  misses : misses (move.after settings s) =
    misses s + if (move.call? settings).isSome && s.store.isSome then 1 else 0

/-- Behind planning, rendering fails for the one reason that there is no code for the plan. -/
theorem render_fails_iff : (Move.render service request previous).Fails settings s ↔
    ∀ p, planOf (plan settings service request previous s).1 = some p →
      ∃ e, Markup.generatePlan settings.importPath p = .error e := by
  rw [Move.Fails]
  rcases planned : plan settings service request previous s with ⟨failure | ⟨_ | p, errors⟩, s'⟩
  · simp [planOf]
  · simp [planOf]
  · simp only [planOf, Option.some.injEq, forall_eq', reduceCtorEq, or_false]
    constructor
    · rintro ⟨failure, failed⟩
      cases made : Markup.generatePlan settings.importPath p with
      | error e => exact ⟨e, rfl⟩
      | ok g => cases failed.symm.trans (render_of_generated made planned)
    · rintro ⟨e, unmade⟩
      exact ⟨_, render_of_unwritable unmade planned⟩

/-- Where a request that fails comes to an end, what it raises and which store it leaves: before the stored plans are
looked at, or behind. -/
inductive Stopped (settings : Settings) (request : Value) (previous : Option Plan) (s : Session) :
    Option Failure → Option PlanStore → Prop
  | before {failure? : Option Failure}
      (unscreened : (screen settings request previous).1.toOption = none ∨ s.store = none) :
      Stopped settings request previous s failure? s.store
  | behind {failure? : Option Failure} {message key : String} {plans plans' : PlanStore}
      (screened : (screen settings request previous).1 = .ok message) (stored : s.store = some plans)
      (keyed : PlanStore.key message previous = .ok key) (swept : Lru.Swept plans key s.clock plans')
      (other : ∀ reason, failure? ≠ some (.requestRejected reason)) :
      Stopped settings request previous s failure? (some plans')

/-- The stored plans are not touched any more once the service is asked, unless there is a new one. -/
theorem consulted_store {message : String} {key : Option String} {s' : Session} {ending : Ending}
    (course : Consulted settings service message previous key s ending s') (failed : planOf ending.answer = none) :
    s'.store = s.store ∧ ∀ reason, raised? ending.answer ≠ some (.requestRejected reason) := by
  cases course with
  | unasked | raised | malformed | invalid => exact ⟨rfl, nofun⟩
  | valid => cases failed

theorem plan_stopped (regular : StoresRegularly s.store) (writable : ∀ p, previous = some p → p.Writable)
    (failed : planOf (plan settings service request previous s).1 = none) :
    Stopped settings request previous s (raised? (plan settings service request previous s).1)
      (plan settings service request previous s).2.store := by
  obtain ⟨ending, s', course, planned⟩ := plan_course settings service request previous s
  rw [planned] at failed ⊢
  cases course with
  | screenedOut screened =>
    refine .before (.inl ?_)
    rw [screened]
    rfl
  | keyless _ _ keyed => exact (not_fromPrevious writable (key_failure keyed)).elim
  | found => cases failed
  | missed screened stored keyed miss consulted =>
    obtain ⟨same, other⟩ := consulted_store consulted failed
    dsimp only
    rw [same]
    exact .behind screened stored keyed (Lru.swept_get (regular _ stored) miss) other
  | storeless _ unstored consulted =>
    obtain ⟨same, -⟩ := consulted_store consulted failed
    dsimp only
    rw [same]
    exact .before (.inr unstored)

theorem spared_of_stopped
    (call : move.call? settings = (screen settings request previous).1.toOption.map (·, previous))
    (stopped : Stopped settings request previous s (move.raised? settings s) (move.after settings s).store) :
    Spared settings s move := by
  generalize left : (move.after settings s).store = store at stopped
  cases stopped with
  | before unscreened =>
    have unreached : ((move.call? settings).isSome && s.store.isSome) = false := by
      rw [call]
      rcases unscreened with none | none <;> simp [none]
    refine ⟨fun _ _ => left, fun _ => left, fun message previous plans called stored => ?_, ?_⟩
    · rw [called, stored] at unreached
      cases unreached
    · rw [unreached, misses, left]
      rfl
  | @behind message key plans plans' screened stored keyed swept other =>
    have called : move.call? settings = some (message, previous) := by
      rw [call, screened]
      rfl
    refine ⟨fun reason raised => (other reason raised).elim, fun unreached => ?_, ?_, ?_⟩
    · rw [called, stored] at unreached
      simp at unreached
    · intro message' previous' plans₀ called' stored'
      cases called.symm.trans called'
      cases stored.symm.trans stored'
      exact ⟨key, plans', keyed, left, swept⟩
    · rw [called, stored, misses, left, misses, stored]
      exact swept.misses

theorem raised?_render (planless : planOf (plan settings service request previous s).1 = none) :
    raised? (render settings service request previous s).1 = raised? (plan settings service request previous s).1 := by
  rcases planned : plan settings service request previous s with ⟨failure | ⟨_ | p, errors⟩, s'⟩
  · rw [render_of_failed planned]
    rfl
  · rw [render_of_planless planned]
    rfl
  · rw [planned] at planless
    cases planless

theorem move_spared (regular : StoresRegularly s.store) (serialisable : move.Serialisable)
    (fails : move.Fails settings s) (planless : move.accepted settings s = none) : Spared settings s move := by
  cases move with
  | plan service request previous => exact spared_of_stopped rfl (plan_stopped regular serialisable planless)
  | render service request previous =>
    have stopped := plan_stopped regular serialisable planless
    rw [← raised?_render planless, ← render_store] at stopped
    exact spared_of_stopped rfl stopped
  | explain | wait =>
    rw [Move.Fails] at fails
    exact fails.elim

/-- Let a planner begin with an empty store or without one, and let it plan, render, explain and wait in any order.
A call to plan or to render that fails then without having got a plan, for a plan to change that can be written, leaves
the store as it was, but for the miss that is counted if plans were looked up, and for the entry that was looked for if
it had expired. -/
theorem failed_calls_spare {settings : Settings} {start : Session}
    (empty : ∀ plans, start.store = some plans → plans.entries = [] ∧ plans.size = 0) (moves : List Move) {move : Move}
    (serialisable : move.Serialisable) (fails : move.Fails settings (run settings moves start))
    (planless : move.accepted settings (run settings moves start) = none) :
    Spared settings (run settings moves start) move := by
  have regular : StoresRegularly start.store := by
    intro plans stored
    obtain ⟨entries, size⟩ := empty plans stored
    exact Lru.regular_of_empty entries size
  exact move_spared (run_storesRegularly regular moves) serialisable fails planless

/-! ### An entry that expires -/

def brokenService : Service := fun _ => ⟨0.5, .error ⟨"TimeoutError", "no answer"⟩⟩

def lapsedMoves : List Move := [.wait 1.0, titledMove, .wait 60.0]

def lapsedAgain : Move := .render brokenService (.str " a card ") (some (titled widthFirst))

def titledKey : String := Digest.Algorithm.xxhash64.ofText (PlanStore.keyText "a card" titledText)

/-- The store of the minute when the card has been planned. -/
def titledStore : PlanStore :=
  PlanStore.store { capacity := 3, capacity_pos := minuteCapacity_pos, ttl := some (.whole 60), misses := 1 } titledKey
    cardPlan ((minuteSession.advance 1.0).clock + 0.5)

theorem lookUp_empty (empty : plans.entries = []) (key : String) (now : Float) :
    (plans.lookUp key now).2 = { plans with misses := plans.misses + 1 } := by
  rw [PlanStore.lookUp, Lru.get, Lru.find?, empty]
  rfl

theorem after_titledMove : (titledMove.after {} (minuteSession.advance 1.0)).store = some titledStore := by
  have stored : (minuteSession.advance 1.0).store = minuteSession.store := rfl
  obtain ⟨plans', left, turn⟩ := move_turn {} titledMove (stored.trans minuteSession_store)
  rw [titledMove_planned] at turn
  rw [left]
  cases turn with
  | recalled _ _ stale => cases stale
  | stored keyed =>
    obtain rfl := Except.ok.inj ((key_of_titled previousText_titleFirst).symm.trans keyed)
    rw [lookUp_empty rfl, titledStore, titledKey]

theorem lapsed_session : (run {} lapsedMoves minuteSession).store = some titledStore ∧
    (run {} lapsedMoves minuteSession).clock = (minuteSession.advance 1.0).clock + 0.5 + 60.0 := by
  have time := time_of_planned titledMove_planned
  have waited (s : Session) (seconds : Float) : (s.advance seconds).store = s.store := rfl
  simp only [lapsedMoves, run, List.foldl_cons, List.foldl_nil, after_wait]
  rw [waited, after_titledMove, Session.advance, ← time]
  exact ⟨rfl, rfl⟩

theorem planless_of_broken (broken : ∀ prompt, ∃ raised, (service prompt).reply = .error raised)
    (missed : ∀ message key plans, (screen settings request previous).1 = .ok message → s.store = some plans →
      PlanStore.key message previous = .ok key → (plans.lookUp key s.clock).1 = none) :
    planOf (plan settings service request previous s).1 = none := by
  obtain ⟨ending, s', course, planned⟩ := plan_course settings service request previous s
  rw [planned]
  cases course with
  | screenedOut | keyless => rfl
  | found screened stored keyed hit => cases (missed _ _ _ screened stored keyed).symm.trans hit
  | missed _ _ _ _ consulted | storeless _ _ consulted =>
    cases consulted with
    | unasked | raised | malformed | invalid => rfl
    | valid _ reply =>
      obtain ⟨raised, refused⟩ := broken _
      cases refused.symm.trans reply

theorem titledStore_lapsed :
    (titledStore.lookUp titledKey ((minuteSession.advance 1.0).clock + 0.5 + 60.0)).1 = none := by
  have old : (Quantity.whole 60).atMost
      ((minuteSession.advance 1.0).clock + 0.5 + 60.0 - ((minuteSession.advance 1.0).clock + 0.5)) = true := by
    decide +kernel
  rw [titledStore, PlanStore.lookUp, PlanStore.store]
  generalize titledKey = key
  exact Lru.get_set_lapsed old

theorem titledStore_misses : titledStore.misses = 1 := (Lru.set_figures _ _ _ _).2

theorem titledStore_entries : titledStore.entries =
    [⟨titledStore.digestOf titledKey, cardPlan, (minuteSession.advance 1.0).clock + 0.5⟩] := by
  simp [titledStore, PlanStore.store, Lru.set, Lru.others, Lru.digestOf]

theorem lapsedAgain_planless (store : s.store = some titledStore)
    (clock : s.clock = (minuteSession.advance 1.0).clock + 0.5 + 60.0) : lapsedAgain.accepted {} s = none := by
  rw [lapsedAgain, Move.accepted]
  refine planless_of_broken (fun _ => ⟨_, rfl⟩) fun message key plans screened stored keyed => ?_
  obtain rfl := Except.ok.inj (titledAgain_screened.symm.trans screened)
  obtain rfl := Except.ok.inj ((key_of_titled previousText_widthFirst).symm.trans keyed)
  obtain rfl := Option.some.inj (store.symm.trans stored)
  rw [clock]
  exact titledStore_lapsed

theorem lapsedAgain_fails (planless : lapsedAgain.accepted {} s = none) : lapsedAgain.Fails {} s := by
  refine render_fails_iff.mpr fun p accepted => ?_
  cases planless.symm.trans accepted

theorem lapsedAgain_call : lapsedAgain.call? {} = some ("a card", some (titled widthFirst)) := by
  rw [lapsedAgain, Move.call?, titledAgain_screened]
  rfl

theorem titledKey_again : PlanStore.key "a card" (some (titled widthFirst)) = .ok titledKey := by
  rw [titledKey]
  exact key_of_titled previousText_widthFirst

/-- The card has been stored for a minute when it is asked for again, and the service does not answer this time: the
entry is gone, and the second miss is counted. -/
theorem failed_calls_spare_lapsed :
    let s := run {} lapsedMoves minuteSession
    (∀ plans, minuteSession.store = some plans → plans.entries = [] ∧ plans.size = 0) ∧ lapsedAgain.Serialisable ∧
      lapsedAgain.Fails {} s ∧ lapsedAgain.accepted {} s = none ∧ Spared {} s lapsedAgain ∧
      ∃ left, (lapsedAgain.after {} s).store = some left ∧ left.entries = [] ∧ left.misses = 2 := by
  dsimp only
  have empty : ∀ plans, minuteSession.store = some plans → plans.entries = [] ∧ plans.size = 0 := by
    intro plans stored
    obtain rfl := Option.some.inj (minuteSession_store.symm.trans stored)
    exact ⟨rfl, rfl⟩
  have serialisable : lapsedAgain.Serialisable := by
    intro p same
    obtain rfl := Option.some.inj same
    exact writable_widthFirst
  have planless := lapsedAgain_planless lapsed_session.1 lapsed_session.2
  have fails := lapsedAgain_fails planless
  have spared := failed_calls_spare empty lapsedMoves serialisable fails planless
  refine ⟨empty, serialisable, fails, planless, spared, ?_⟩
  obtain ⟨key, left, keyed, after, swept⟩ := spared.swept "a card" _ titledStore lapsedAgain_call lapsed_session.1
  obtain rfl := Except.ok.inj (titledKey_again.symm.trans keyed)
  have misses := swept.misses
  rw [titledStore_misses] at misses
  refine ⟨left, after, ?_, misses⟩
  cases swept with
  | absent unknown =>
    rw [titledStore_entries] at unknown
    exact (unknown _ List.mem_cons_self rfl).elim
  | @lapsed before after e split =>
    rw [titledStore_entries] at split
    cases before with
    | nil => exact (List.cons.inj split).2.symm
    | cons _ before => simp at split

/-! ### A plan that cannot be written -/

theorem mem_lookUp {key : String} {now : Float} {p : Plan} (hit : (plans.lookUp key now).1 = some p) :
    ∃ e ∈ (plans.lookUp key now).2.entries, e.value = p := by
  have lookup := Lru.get_lookup plans key now
  rw [PlanStore.lookUp] at hit ⊢
  rw [hit] at lookup
  generalize same : some p = found, (plans.get key now).2 = plans' at lookup ⊢
  cases lookup with
  | absent | lapsed => cases same
  | hit => exact ⟨_, List.mem_append_right _ List.mem_cons_self, (Option.some.inj same).symm⟩

theorem mem_store (plans : PlanStore) (key : String) (p : Plan) (now : Float) :
    ∃ e ∈ (plans.store key p now).entries, e.value = p := by
  obtain ⟨kept, _, _, same, -⟩ := Lru.set_eq plans key p now
  rw [PlanStore.store, same]
  exact ⟨_, List.mem_append_right _ List.mem_cons_self, rfl⟩

/-- A plan that is handed out is among the stored ones from then on. -/
theorem plan_stored {p : Plan} (stored : s.store = some plans)
    (accepted : planOf (plan settings service request previous s).1 = some p) :
    ∃ plans', (plan settings service request previous s).2.store = some plans' ∧
      ∃ e ∈ plans'.entries, e.value = p := by
  obtain ⟨ending, s', course, planned⟩ := plan_course settings service request previous s
  rw [planned] at accepted ⊢
  cases course with
  | screenedOut | keyless => cases accepted
  | found _ _ _ hit =>
    obtain rfl := Option.some.inj accepted
    exact ⟨_, rfl, mem_lookUp hit⟩
  | missed _ _ _ _ consulted =>
    cases consulted with
    | unasked | raised | malformed | invalid => cases accepted
    | valid =>
      obtain rfl := Option.some.inj accepted
      exact ⟨_, rfl, mem_store _ _ _ _⟩
  | storeless _ unstored => cases stored.symm.trans unstored

/-- Rendering stores a plan before it writes it, so an empty store does not stay empty. -/
theorem not_spared_of_accepted {p : Plan} {message : String} (stored : s.store = some plans)
    (unfilled : plans.entries = [])
    (screened : (screen settings request previous).1 = .ok message)
    (accepted : planOf (plan settings service request previous s).1 = some p) :
    ¬ Spared settings s (.render service request previous) := by
  intro spared
  have called : (Move.render service request previous).call? settings = some (message, previous) := by
    rw [Move.call?, screened]
    rfl
  obtain ⟨key, plans', -, after, swept⟩ := spared.swept message previous plans called stored
  obtain ⟨left, same, e, member, -⟩ := plan_stored stored accepted
  rw [Move.after, render_store] at after
  obtain rfl := Option.some.inj (after.symm.trans same)
  have before := swept.mem member
  rw [unfilled] at before
  cases before

def nestedRender : Move := .render (nestedService 300) (.str "a card") none

/-- Three hundred lists inside one another are planned and stored, and then there is no code. -/
theorem deep_variant_stored :
    let s := run {} [.wait 1.0] cardSession
    (∀ plans, cardSession.store = some plans → plans.entries = [] ∧ plans.size = 0) ∧ nestedRender.Serialisable ∧
      nestedRender.Fails {} s ∧ ¬ Spared {} s nestedRender := by
  dsimp only
  have empty : ∀ plans, cardSession.store = some plans → plans.entries = [] ∧ plans.size = 0 := by
    intro plans stored
    obtain rfl := Option.some.inj stored
    exact ⟨rfl, rfl⟩
  have accepted : planOf (plan {} (nestedService 300) (.str "a card") none (run {} [.wait 1.0] cardSession)).1 =
      some (nestedPlan 300) := by
    rw [nestedService_answers (by decide)]
    rfl
  have screened : (screen {} (.str "a card") none).1 = .ok "a card" := by with_unfolding_all rfl
  refine ⟨empty, nofun, ?_, not_spared_of_accepted rfl rfl screened accepted⟩
  refine render_fails_iff.mpr fun p same => ?_
  obtain rfl := Option.some.inj (accepted.symm.trans same)
  have deep : ¬ (nestedPlan 300).Shallow := by
    rw [nestedPlan_shallow]
    decide
  exact ⟨_, Markup.generatePlan_deep deep _⟩

end Planner
end ScreenPlan
