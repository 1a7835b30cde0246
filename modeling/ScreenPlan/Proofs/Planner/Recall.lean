import ScreenPlan.Proofs.Cache.Key
import ScreenPlan.Proofs.Decimal.Order
import ScreenPlan.Proofs.Planner.History

/-!
# Recalled plans

A stored plan is that of the latest call that made one for its request and its previous plan. So when a
planner answers without asking the service, it answers with the plan it has made last for the same.
-/

namespace ScreenPlan.Planner
open PlanStore (SamePlan FloatFree FiledUnder)

/-! ### The latest of a list -/

section
variable {α : Type} {P Q : α → Prop} {xs : List α} {x y : α}

/-- The last element of a list that has a property. -/
def Latest (P : α → Prop) (xs : List α) (x : α) : Prop :=
  ∃ older newer, xs = older ++ x :: newer ∧ P x ∧ ∀ y ∈ newer, ¬ P y

theorem latest_append_new (holds : P y) : Latest P (xs ++ [y]) y := ⟨xs, [], rfl, holds, nofun⟩

theorem Latest.append_other (latest : Latest P xs x) (fails : ¬ P y) : Latest P (xs ++ [y]) x := by
  obtain ⟨older, newer, rfl, holds, none⟩ := latest
  refine ⟨older, newer ++ [y], by rw [List.append_assoc, List.cons_append], holds, ?_⟩
  exact List.forall_mem_append.mpr ⟨none, List.forall_mem_singleton.mpr fails⟩

theorem Latest.mem (latest : Latest P xs x) : x ∈ xs := by
  obtain ⟨older, newer, rfl, -, -⟩ := latest
  exact List.mem_append_right _ List.mem_cons_self

theorem Latest.congr (latest : Latest P xs x) (same : ∀ y ∈ xs, P y ↔ Q y) : Latest Q xs x := by
  obtain ⟨older, newer, rfl, holds, none⟩ := latest
  rw [List.forall_mem_append, List.forall_mem_cons] at same
  exact ⟨older, newer, rfl, same.2.1.mp holds, fun y hy holds => none y hy ((same.2.2 y hy).mpr holds)⟩

end

variable {settings : Settings} {s : Session} {plans : PlanStore} {move : Move} {moves : List Move} {m : Planned}

/-- Made by the service, and for the same. -/
structure MadeFor (message : String) (previous : Option Plan) (m : Planned) : Prop where
  fresh : m.fresh = true
  message : m.message = message
  previous : SamePlan m.previous previous

/-! ### Runs -/

/-- The service made the plan, and it is filed under this digest. -/
def MadeUnder (digest : String) (m : Planned) : Prop :=
  m.fresh = true ∧ FiledUnder m.message m.previous digest

/-- Every entry is from the latest call that made a plan for its digest. -/
structure Kept (past : List Planned) (plans : PlanStore) : Prop where
  algorithm : plans.algorithm = .xxhash64
  entries : ∀ e ∈ plans.entries,
    ∃ m, Latest (MadeUnder e.digest) past m ∧ m.plan = e.value ∧ m.time = e.storedAt

variable {past : List Planned} {plans' : PlanStore} {c? : Option Planned}

theorem kept_lookUp (kept : Kept past plans) (key : String) (now : Float) :
    Kept past (plans.lookUp key now).2 := by
  refine ⟨?_, fun e he => kept.entries e (Lru.mem_entries_get he)⟩
  rw [PlanStore.lookUp, Lru.get_algorithm, kept.algorithm]

theorem kept_append {m : Planned} (kept : Kept past plans) (stale : m.fresh = false) : Kept (past ++ [m]) plans := by
  refine ⟨kept.algorithm, fun e he => ?_⟩
  obtain ⟨old, latest, value, time⟩ := kept.entries e he
  have other : ¬ MadeUnder e.digest m := fun made => Bool.false_ne_true (stale.symm.trans made.1)
  exact ⟨old, latest.append_other other, value, time⟩

theorem kept_store {m : Planned} {key : String} (kept : Kept past plans) (fresh : m.fresh = true)
    (keyed : PlanStore.key m.message m.previous = .ok key) :
    Kept (past ++ [m]) (plans.store key m.plan m.time) := by
  have digest : plans.digestOf key = Digest.entryKey .xxhash64 key := by
    rw [Lru.digestOf, kept.algorithm]
  have filed : FiledUnder m.message m.previous (plans.digestOf key) := ⟨key, keyed, digest⟩
  refine ⟨?_, fun e he => ?_⟩
  · rw [PlanStore.store, Lru.set_algorithm, kept.algorithm]
  · rcases Lru.mem_set he with ⟨old, elsewhere⟩ | rfl
    · -- Another entry keeps its digest, so the new plan is not filed there.
      obtain ⟨m', latest, value, time⟩ := kept.entries e old
      have other : ¬ MadeUnder e.digest m := fun made => elsewhere (PlanStore.filedUnder_unique made.2 filed)
      exact ⟨m', latest.append_other other, value, time⟩
    · exact ⟨m, latest_append_new ⟨fresh, filed⟩, rfl, rfl⟩

theorem kept_turn (kept : Kept past plans) (turn : Turn s plans c? plans') : Kept (past ++ c?.toList) plans' := by
  cases turn with
  | idle =>
    rw [Option.toList_none, List.append_nil]
    exact kept
  | missed key =>
    rw [Option.toList_none, List.append_nil]
    exact kept_lookUp kept key s.clock
  | recalled keyed hit stale time => exact kept_append (kept_lookUp kept _ _) stale
  | stored keyed fresh => exact kept_store (kept_lookUp kept _ _) fresh keyed

theorem turn_ttl (turn : Turn s plans c? plans') : plans'.ttl = plans.ttl := by
  cases turn with
  | idle => rfl
  | missed key => exact Lru.get_ttl
  | recalled => exact Lru.get_ttl
  | stored => exact Lru.set_ttl.trans Lru.get_ttl

theorem kept_run (kept : Kept past plans) (stored : s.store = some plans) (moves : List Move) :
    ∃ plans', (run settings moves s).store = some plans' ∧ plans'.ttl = plans.ttl ∧
      Kept (past ++ history settings moves s) plans' := by
  -- The calls answered so far are carried along in `past`.
  induction moves generalizing s plans past with
  | nil => exact ⟨plans, stored, rfl, by rwa [history, List.append_nil]⟩
  | cons move moves ih =>
    obtain ⟨next, stored', turn⟩ := move_turn settings move stored
    obtain ⟨plans', last, ttl, kept'⟩ := ih (kept_turn kept turn) stored'
    rw [List.append_assoc] at kept'
    exact ⟨plans', last, ttl.trans (turn_ttl turn), kept'⟩

theorem recalled_entry {c : Planned} (kept : Kept past plans) (turn : Turn s plans (some c) plans')
    (stale : c.fresh = false) : ∃ digest m, FiledUnder c.message c.previous digest ∧
      Latest (MadeUnder digest) past m ∧ m.plan = c.plan ∧
      ∀ q, plans.ttl = some q → q.atMost (s.clock - m.time) = false := by
  cases turn with
  | stored _ fresh => exact (Bool.false_ne_true (stale.symm.trans fresh)).elim
  | @recalled _ key keyed hit _ _ =>
    obtain ⟨e, member, digest, value, current⟩ := Lru.get_some hit
    obtain ⟨m, latest, plan, time⟩ := kept.entries e member
    have filed : FiledUnder c.message c.previous e.digest :=
      ⟨key, keyed, by rw [digest, Lru.digestOf, kept.algorithm]⟩
    refine ⟨e.digest, m, filed, latest, plan.trans value, fun q limited => ?_⟩
    rw [Lru.expired, limited] at current
    rw [time]
    exact current

/-! ### The same call again -/

/-- A plan is remembered: the same call some time later, before the entry expires, does not ask the service. -/
theorem recalled_again {again : Move} {c : Planned} {previous' : Option Plan} {key' : String} {seconds : Float}
    (stored : s.store = some plans) (planned : move.planned? settings s = some c) (fresh : c.fresh = true)
    (call : again.call? settings = some (c.message, previous'))
    (keyed' : PlanStore.key c.message previous' = .ok key') (free : FloatFree c.previous)
    (free' : FloatFree previous') (same : SamePlan previous' c.previous)
    (current : ∀ q, plans.ttl = some q → q.atMost (c.time + seconds - c.time) = false) :
    again.planned? settings ((move.after settings s).advance seconds) =
      some ⟨c.message, previous', c.plan, c.time + seconds, false⟩ := by
  obtain ⟨plans', stored', turn⟩ := move_turn settings move stored
  obtain ⟨service, request, screened, planning⟩ := screened_of_call call
  rw [planned] at turn
  rw [time_of_planned planned] at current ⊢
  cases turn with
  | recalled _ _ stale => exact (Bool.false_ne_true (stale.symm.trans fresh)).elim
  | @stored _ key keyed _ =>
    obtain rfl := PlanStore.key_of_same free' free same keyed' keyed
    have unexpired : (plans.lookUp key' s.clock).2.expired ((move.after settings s).clock + seconds)
        ⟨(plans.lookUp key' s.clock).2.digestOf key', c.plan, c.time⟩ = false := by
      rw [Lru.expired, PlanStore.lookUp, Lru.get_ttl, time_of_planned planned]
      cases limited : plans.ttl with
      | none => rfl
      | some q => exact current q limited
    rw [planning]
    exact planned?_of_hit stored' screened keyed' (Lru.get_set unexpired)

/-! ### The plan that is recalled -/

/-- In a run without collisions, what is filed under the digest of a call is what was made for the same. -/
theorem madeUnder_iff {digest : String} {c : Planned} (stored : s.store = some plans)
    (apart : Digest.Apart (hashed settings (moves ++ [move])))
    (floatFree : ∀ call ∈ calls settings (moves ++ [move]), FloatFree call.2)
    (call : move.call? settings = some (c.message, c.previous)) (filed : FiledUnder c.message c.previous digest)
    (member : m ∈ history settings moves s) : MadeUnder digest m ↔ MadeFor c.message c.previous m := by
  obtain ⟨before, move', after, split, planned, key, keyed⟩ := mem_history stored member
  have call' := call_of_planned planned
  have last : move ∈ moves ++ [move] := List.mem_append_right _ List.mem_cons_self
  have earlier : move' ∈ moves ++ [move] := by
    rw [split]
    exact List.mem_append_left _ (List.mem_append_right _ List.mem_cons_self)
  have free : FloatFree c.previous := floatFree _ (List.mem_filterMap.mpr ⟨_, last, call⟩)
  have free' : FloatFree m.previous := floatFree _ (List.mem_filterMap.mpr ⟨_, earlier, call'⟩)
  have same := PlanStore.filedUnder_iff apart filed free (mem_hashed call last) keyed free' (mem_hashed call' earlier)
  constructor
  · rintro ⟨fresh, filed'⟩
    obtain ⟨message, previous⟩ := same.mp filed'
    exact ⟨fresh, message, previous⟩
  · rintro ⟨fresh, message, previous⟩
    exact ⟨fresh, same.mpr ⟨message, previous⟩⟩

/-- Let a planner begin with an empty store of any size and any time to live, and let it plan, render, explain
and wait in any order, for previous plans without floating-point numbers and on a clock that stays finite. If no
two of the texts that are hashed for the store have the same digest, then a call that is answered without the
service gets the plan of the latest call that made one for the same trimmed request and, up to the order of keys,
the same previous plan; and less time than the time to live has passed since. -/
theorem recalled_plan_is_latest {settings : Settings} {start : Session} {capacity : Nat} {positive : 0 < capacity}
    {ttl : Option Quantity}
    (empty : start.store = some { capacity := capacity, capacity_pos := positive, ttl := ttl })
    (number : ∀ y, ttl = some (.real y) → y.isNaN = false) (moves : List Move) (move : Move)
    (apart : Digest.Apart (hashed settings (moves ++ [move])))
    (floatFree : ∀ call ∈ calls settings (moves ++ [move]), FloatFree call.2)
    (finite : ∀ before, before <+: moves → (run settings before start).clock.isFinite = true) {c : Planned}
    (planned : move.planned? settings (run settings moves start) = some c) (stale : c.fresh = false) :
    ∃ m, Latest (MadeFor c.message c.previous) (history settings moves start) m ∧ m.plan = c.plan ∧
      ∀ q, ttl = some q → q.Exceeds ((run settings moves start).clock - m.time) := by
  have nothing : Kept [] { capacity := capacity, capacity_pos := positive, ttl := ttl } := ⟨rfl, nofun⟩
  obtain ⟨plans, stored, sameTtl, kept⟩ := kept_run nothing empty moves
  obtain ⟨plans', -, turn⟩ := move_turn settings move stored
  rw [planned] at turn
  obtain ⟨digest, m, filed, latest, plan, current⟩ := recalled_entry kept turn stale
  have call := call_of_planned planned
  refine ⟨m, latest.congr fun y hy => madeUnder_iff empty apart floatFree call filed hy, plan, fun q limited => ?_⟩
  obtain ⟨before, initial, time⟩ := time_of_history empty latest.mem
  have duration : ((run settings moves start).clock - m.time).isNaN = false := by
    rw [time]
    exact Doubles.isNaN_sub (finite moves (List.prefix_refl moves)) (finite before initial)
  exact Quantity.exceeds_of_not_atMost (fun y same => number y (same ▸ limited)) duration
    (current q (sameTtl.trans limited))

/-! ### A card with a title -/

def titled (props : Table Value) : Plan := ⟨"flex", [⟨.card, props, []⟩]⟩

def titleFirst : Table Value := [("title", .str "Q1"), ("width", .int 3)]

def widthFirst : Table Value := [("width", .int 3), ("title", .str "Q1")]

theorem exact_titled {props : Table Value} (distinct : props.names.Nodup) (each : ∀ e ∈ props, e.2.Exact) :
    Value.Exact (.object [("layout", .str "flex"), ("components", .list [.object [("type", .str "Card"),
      ("props", .object props), ("children", .list [])]])]) := by
  have node : Value.Exact (.object [("type", .str "Card"), ("props", .object props), ("children", .list [])]) := by
    refine .object (by simp [Table.names]) ?_
    simp only [List.forall_mem_cons]
    exact ⟨.str _, .object distinct each, .list nofun, nofun⟩
  refine .object (by simp [Table.names]) ?_
  simp only [List.forall_mem_cons]
  exact ⟨.str _, .list (List.forall_mem_singleton.mpr node), nofun⟩

theorem titleFirst_floatFree : FloatFree (some (titled titleFirst)) := by
  intro p same
  obtain rfl := Option.some.inj same
  have each : ∀ e ∈ titleFirst, e.2.Exact :=
    List.forall_mem_cons.mpr ⟨.str _, List.forall_mem_singleton.mpr (.int _)⟩
  exact exact_titled (by decide) each

theorem widthFirst_floatFree : FloatFree (some (titled widthFirst)) := by
  intro p same
  obtain rfl := Option.some.inj same
  have each : ∀ e ∈ widthFirst, e.2.Exact :=
    List.forall_mem_cons.mpr ⟨.int _, List.forall_mem_singleton.mpr (.str _)⟩
  exact exact_titled (by decide) each

def titledSorted : Value :=
  .object [("components", .list [.object [("children", .list []), ("props", .object titleFirst),
    ("type", .str "Card")]]), ("layout", .str "flex")]

def titledText : String := String.ofList (Json.print Json.fast.spelling .compact 0 titledSorted)

theorem previousText_titled {props : Table Value} (sorted : (titled props).toValue.sorted = titledSorted)
    (writable : (titled props).Writable) : PlanStore.previousText (some (titled props)) = .ok titledText := by
  have fits : Json.fast.obstacle? Json.fast.room titledSorted = none := by rfl
  refine Plan.writtenWith_ok writable.shallow ?_
  rw [Value.canonical, sorted, Json.Encoder.encode, fits]
  rfl

theorem writable_titleFirst : (titled titleFirst).Writable := ⟨_, rfl⟩

theorem writable_widthFirst : (titled widthFirst).Writable := ⟨_, rfl⟩

theorem previousText_titleFirst : PlanStore.previousText (some (titled titleFirst)) = .ok titledText := by
  refine previousText_titled ?_ writable_titleFirst
  simp [titled, titleFirst, titledSorted, Plan.toValue, Node.toValues, Node.toValue, Kind.name, Value.settledMembers,
    Value.settled, Value.sorted, Value.sortedItems, Value.sortedMembers, List.mergeSort,
    List.MergeSort.Internal.splitInTwo]

theorem previousText_widthFirst : PlanStore.previousText (some (titled widthFirst)) = .ok titledText := by
  refine previousText_titled ?_ writable_widthFirst
  simp [titled, titleFirst, widthFirst, titledSorted, Plan.toValue, Node.toValues, Node.toValue, Kind.name,
    Value.settledMembers, Value.settled, Value.sorted, Value.sortedItems, Value.sortedMembers, List.mergeSort,
    List.MergeSort.Internal.splitInTwo]

theorem same_titled : SamePlan (some (titled widthFirst)) (some (titled titleFirst)) :=
  (PlanStore.previousText_eq_iff widthFirst_floatFree titleFirst_floatFree previousText_widthFirst
    previousText_titleFirst).mp rfl

theorem key_of_titled {previous : Option Plan} (written : PlanStore.previousText previous = .ok titledText) :
    PlanStore.key "a card" previous =
      .ok (Digest.Algorithm.xxhash64.ofText (PlanStore.keyText "a card" titledText)) := by
  rw [PlanStore.key, written]
  rfl

/-- Plans are stored for a minute. -/
theorem minuteCapacity_pos : 0 < 3 := by decide

def minuteSession : Session :=
  start {} (some { capacity := 3, capacity_pos := minuteCapacity_pos, ttl := some (.whole 60) })

theorem minuteSession_store :
    minuteSession.store = some { capacity := 3, capacity_pos := by decide, ttl := some (.whole 60) } := rfl

def titledMove : Move := .plan cardService (.str "a card") (some (titled titleFirst))

def titledAgain : Move := .render cardService (.str " a card ") (some (titled widthFirst))

def titledMoves : List Move := [.wait 1.0, titledMove, .wait 30.0]

theorem after_wait (s : Session) (seconds : Float) : (Move.wait seconds).after {} s = s.advance seconds := rfl

theorem run_titledMoves : run {} titledMoves minuteSession =
    (titledMove.after {} (minuteSession.advance 1.0)).advance 30.0 := by
  simp only [titledMoves, run, List.foldl_cons, List.foldl_nil, after_wait]

theorem titledMove_screened : (screen {} (.str "a card") (some (titled titleFirst))).1 = .ok "a card" :=
  eq_ok_of_toOption (by decide +kernel)

theorem titledAgain_screened : (screen {} (.str " a card ") (some (titled widthFirst))).1 = .ok "a card" :=
  eq_ok_of_toOption (by decide +kernel)

theorem titledMove_call : titledMove.call? {} = some ("a card", some (titled titleFirst)) := by
  rw [titledMove, Move.call?, titledMove_screened]
  rfl

theorem titledAgain_call : titledAgain.call? {} = some ("a card", some (titled widthFirst)) := by
  rw [titledAgain, Move.call?, titledAgain_screened]
  rfl

theorem calls_titled : calls {} (titledMoves ++ [titledAgain]) =
    [("a card", some (titled titleFirst)), ("a card", some (titled widthFirst))] := by
  have waiting (seconds : Float) : (Move.wait seconds).call? {} = none := rfl
  simp [calls, titledMoves, waiting, titledMove_call, titledAgain_call]

theorem titled_floatFree : ∀ call ∈ calls {} (titledMoves ++ [titledAgain]), FloatFree call.2 := by
  rw [calls_titled]
  exact List.forall_mem_cons.mpr ⟨titleFirst_floatFree, List.forall_mem_singleton.mpr widthFirst_floatFree⟩

theorem titled_apart : Digest.Apart (hashed {} (titledMoves ++ [titledAgain])) := by
  rw [hashed, calls_titled]
  simp only [PlanStore.hashed, previousText_titleFirst, previousText_widthFirst, List.flatMap_cons, List.flatMap_nil]
  unfold Digest.Apart
  decide +kernel

theorem titledMove_planned : titledMove.planned? {} (minuteSession.advance 1.0) =
    some ⟨"a card", some (titled titleFirst), cardPlan, (minuteSession.advance 1.0).clock + 0.5, true⟩ := by
  obtain ⟨indented, written⟩ := Plan.indented_ok writable_titleFirst
  have prompted : Prompt.planner "a card" (some (titled titleFirst)) =
      .ok (Prompt.plannerText "a card" (some indented)) := by
    rw [Prompt.planner, written]
    rfl
  have right : audit card = [] := by cbv
  have made : Plan.read card = .ok cardPlan := by with_unfolding_all rfl
  have stored : (minuteSession.advance 1.0).store = minuteSession.store := rfl
  have reply (prompt : String) : (cardService prompt).reply = .ok (.str cardText) := rfl
  have planned := planned?_of_reply (stored.trans minuteSession_store) titledMove_screened
    (key_of_titled previousText_titleFirst) rfl prompted (reply _) read_cardText right made
  exact planned

theorem titledAgain_planned : titledAgain.planned? {} (run {} titledMoves minuteSession) =
    some ⟨"a card", some (titled widthFirst), cardPlan, (minuteSession.advance 1.0).clock + 0.5 + 30.0, false⟩ := by
  have current : ∀ q, some (Quantity.whole 60) = some q → q.atMost
      ((minuteSession.advance 1.0).clock + 0.5 + 30.0 - ((minuteSession.advance 1.0).clock + 0.5)) = false := by
    rintro _ ⟨⟩
    decide +kernel
  have stored : (minuteSession.advance 1.0).store = minuteSession.store := rfl
  rw [run_titledMoves]
  exact recalled_again (stored.trans minuteSession_store) titledMove_planned rfl titledAgain_call
    (key_of_titled previousText_widthFirst) titleFirst_floatFree widthFirst_floatFree same_titled current

theorem titled_finite : ∀ before, before <+: titledMoves → (run {} before minuteSession).clock.isFinite = true := by
  have planned : (titledMove.after {} (minuteSession.advance 1.0)).clock = (minuteSession.advance 1.0).clock + 0.5 :=
    (time_of_planned titledMove_planned).symm
  have clocks : ∀ n, (run {} (titledMoves.take n) minuteSession).clock.isFinite = true
    | 0 => by decide +kernel
    | 1 => by decide +kernel
    | 2 => by
      simp only [titledMoves, List.take_succ_cons, List.take_zero, run, List.foldl_cons, List.foldl_nil, after_wait,
        planned]
      decide +kernel
    | n + 3 => by
      rw [List.take_of_length_le (by simp [titledMoves]), run_titledMoves, Session.advance, planned]
      decide +kernel
  intro before initial
  rw [List.prefix_iff_eq_take.mp initial]
  exact clocks before.length

/-- A card is planned for a card with a title; half a minute later it is rendered for the same card, whose props
come in another order. -/
theorem recalled_plan_is_latest_titled :
    let s := run {} titledMoves minuteSession
    ∃ c, titledAgain.planned? {} s = some c ∧ c.fresh = false ∧ c.plan = cardPlan ∧
      Digest.Apart (hashed {} (titledMoves ++ [titledAgain])) ∧
      (∀ call ∈ calls {} (titledMoves ++ [titledAgain]), FloatFree call.2) ∧
      (∀ before, before <+: titledMoves → (run {} before minuteSession).clock.isFinite = true) ∧
      ∃ m, Latest (MadeFor "a card" (some (titled widthFirst))) (history {} titledMoves minuteSession) m ∧
        m.plan = cardPlan ∧ (Quantity.whole 60).Exceeds (s.clock - m.time) := by
  have whole : ∀ y, some (Quantity.whole 60) = some (.real y) → y.isNaN = false := nofun
  obtain ⟨m, latest, plan, within⟩ := recalled_plan_is_latest minuteSession_store whole titledMoves titledAgain
    titled_apart titled_floatFree titled_finite titledAgain_planned rfl
  exact ⟨_, titledAgain_planned, rfl, rfl, titled_apart, titled_floatFree, titled_finite, m, latest, plan,
    within _ rfl⟩

end ScreenPlan.Planner
