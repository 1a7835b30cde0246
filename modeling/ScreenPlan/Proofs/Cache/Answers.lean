import ScreenPlan.Proofs.Cache.Retention
import ScreenPlan.Proofs.Decimal.Order

/-!
# What a store answers

If no two keys of a run have the same digest, what a store answers can be told from the operations of the run alone: a
lookup finds the value that was set last under its key, or nothing if that was ended, has expired or had to give way.
-/

namespace ScreenPlan.Lru
variable {α : Type} {start s : Timed α} {ops : List (Op α)} {op : Op α} {e : Entry α} {key : String} {v : α}

/-! ### Keys without collisions -/

/-- No two of the keys have the same digest. -/
def Apart (algorithm : Digest.Algorithm) (keys : List String) : Prop :=
  ∀ a ∈ keys, ∀ b ∈ keys, Digest.entryKey algorithm a = Digest.entryKey algorithm b → a = b

theorem files_iff {known : List String} {digest k : String} (apart : Apart start.store.algorithm known)
    (files : start.Files digest key) (hkey : key ∈ known) (hk : k ∈ known) : start.Files digest k ↔ k = key := by
  constructor
  · intro same
    exact apart k hk key hkey (same.trans files.symm)
  · rintro rfl
    exact files

theorem mem_keys (member : op ∈ ops) (named : op.key? = some key) : key ∈ keys ops :=
  List.mem_filterMap.mpr ⟨op, member, named⟩

theorem mem_keys_set {before after : List (Op α)} : key ∈ keys (before ++ Op.set key v :: after) :=
  mem_keys (List.mem_append_right _ List.mem_cons_self) rfl

theorem mem_touched_set {before after : List (Op α)} : key ∈ touched (before ++ Op.set key v :: after) start := by
  rw [touched, trace_append, List.filterMap_append]
  exact List.mem_append_right _ (List.mem_filterMap.mpr ⟨_, List.mem_cons_self, rfl⟩)

/-- The age has not reached the time to live. -/
def InTime (ttl : Option Quantity) (age : Float) : Prop := ∀ q, ttl = some q → q.Exceeds age

theorem inTime_of_current {c : Lru α} {now : Float} (number : ∀ y, c.ttl = some (.real y) → y.isNaN = false)
    (age : (now - e.storedAt).isNaN = false) (current : c.expired now e = false) :
    InTime c.ttl (now - e.storedAt) := by
  intro q limited
  rw [expired, limited] at current
  refine Quantity.exceeds_of_not_atMost (fun y same => ?_) age current
  rw [same] at limited
  exact number y limited

theorem current_of_inTime {c : Lru α} {now : Float} (within : InTime c.ttl (now - e.storedAt)) :
    c.expired now e = false := by
  rw [expired]
  cases limited : c.ttl with
  | none => rfl
  | some q => exact Quantity.atMost_of_exceeds (within q limited)

theorem isFinite_run (began : start.now.isFinite = true)
    (clocks : ∀ time, Op.clock time ∈ ops → time.isFinite = true) : (run ops start).now.isFinite = true := by
  induction ops generalizing start with
  | nil => exact began
  | cons op ops ih =>
    refine ih ?_ fun time member => clocks time (List.mem_cons_of_mem _ member)
    cases op with
    | clock time => exact clocks time List.mem_cons_self
    | set | get | delete | clear | contains | length => exact began

/-! ### Answers and evictions of a run -/

/-- The value was the last one to be set under the key, and has not been deleted since. -/
structure LastSet (key : String) (ops before : List (Op α)) (v : α) (after : List (Op α)) : Prop where
  split : ops = before ++ Op.set key v :: after
  kept : ∀ op ∈ after, ¬ op.Ends (· = key)

/-- A new value puts out one key and no other. What is stored then was set or hit after that key was for the last
time. -/
structure PutsOut (start : Timed α) (ops : List (Op α)) (key : String) (v : α) (oldest : String) : Prop where
  stored : (run ops start).store.contains oldest = true
  gone : (run (ops ++ [Op.set key v]) start).store.contains oldest = false
  others : ∀ other ∈ keys ops, other ≠ oldest → (run ops start).store.contains other = true →
    (run (ops ++ [Op.set key v]) start).store.contains other = true
  touched : oldest ∈ touched ops start
  oldest : ∀ other ∈ key :: keys ops, (run (ops ++ [Op.set key v]) start).store.contains other = true →
    other ∈ since (· = oldest) (Lru.touched (ops ++ [Op.set key v]) start)

/-- A lookup of what is not stored, or a question that is no lookup. -/
def Op.Quiet (s : Timed α) : Op α → Prop
  | .get key => s.store.contains key = false
  | .contains _ | .length => True
  | _ => False

/-- The time to live is a number, and the clock only shows finite times. -/
structure Measured (start : Timed α) (ops : List (Op α)) : Prop where
  limit : ∀ y, start.store.ttl = some (.real y) → y.isNaN = false
  began : start.now.isFinite = true
  clocks : ∀ time, Op.clock time ∈ ops → time.isFinite = true

/-- What a store does at the end of a run, in terms of the operations of the run. -/
structure Faithful (capacity : Int) (key : String) (ops : List (Op α)) (start : Timed α) : Prop where
  found : ∀ v, ((run ops start).store.get key (run ops start).now).1 = some v →
    ∃ before after, LastSet key ops before v after ∧
      (Measured start ops → InTime start.store.ttl ((run ops start).now - (run before start).now))
  retained : ∀ before v after, LastSet key ops before v after →
    InTime start.store.ttl ((run ops start).now - (run before start).now) →
    (∀ mid rest, after = mid ++ Op.get key :: rest →
      (run (before ++ Op.set key v :: mid) start).lapsed key = false) →
    (since (· = key) (touched ops start)).toFinset.card < capacity →
    ((run ops start).store.get key (run ops start).now).1 = some v
  evicts : ∀ v,
    (run (ops ++ [Op.set key v]) start).store.evictions = (run ops start).store.evictions ∧
      (∀ other, (run ops start).store.contains other = true →
        (run (ops ++ [Op.set key v]) start).store.contains other = true) ∨
    (run (ops ++ [Op.set key v]) start).store.evictions = (run ops start).store.evictions + 1 ∧
      ∃ oldest, PutsOut start ops key v oldest
  spares : ∀ op : Op α, (∀ key v, op ≠ .set key v) →
    (run (ops ++ [op]) start).store.evictions = (run ops start).store.evictions
  quiet : ∀ op : Op α, op.Quiet (run ops start) →
    (run (ops ++ [op]) start).store.entries = (run ops start).store.entries

theorem run_found (empty : start.store.entries = [])
    (apart : Apart start.store.algorithm (key :: keys ops))
    (found : ((run ops start).store.get key (run ops start).now).1 = some v) :
    ∃ before after, LastSet key ops before v after ∧
      (Measured start ops → InTime start.store.ttl ((run ops start).now - (run before start).now)) := by
  obtain ⟨e, member, digest, rfl, current⟩ := get_some found
  have terms := run_sameTerms ops start
  obtain ⟨before, key', after, rfl, files, time, kept⟩ := run_origin empty ops e member
  rw [digestOf_run] at digest
  have hkey : key ∈ key :: keys (before ++ Op.set key' e.value :: after) := List.mem_cons_self
  obtain rfl : key' = key :=
    (files_iff apart digest.symm hkey (List.mem_cons_of_mem _ mem_keys_set)).mp files
  refine ⟨before, after, ⟨rfl, fun op member ends => kept op member ?_⟩, ?_⟩
  · refine (ends_congr fun k named => ?_).mpr ends
    have hk := mem_keys (List.mem_append_right before (List.mem_cons_of_mem (.set key' e.value) member)) named
    exact files_iff apart files hkey (List.mem_cons_of_mem _ hk)
  · rintro ⟨number, began, clocks⟩
    have earlier : (run before start).now.isFinite = true :=
      isFinite_run began fun time member => clocks time (List.mem_append_left _ member)
    have age := Doubles.isNaN_sub (isFinite_run began clocks) earlier
    rw [time] at age ⊢
    rw [← terms.ttl] at number ⊢
    exact inTime_of_current number age current

theorem run_retained (empty : start.store.entries = []) (regular : Regular start.store)
    (apart : Apart start.store.algorithm (key :: keys ops)) {before after : List (Op α)}
    (last : LastSet key ops before v after)
    (within : InTime start.store.ttl ((run ops start).now - (run before start).now))
    (current : ∀ mid rest, after = mid ++ Op.get key :: rest →
      (run (before ++ Op.set key v :: mid) start).lapsed key = false)
    (few : (since (· = key) (touched ops start)).toFinset.card < start.store.capacity) :
    ((run ops start).store.get key (run ops start).now).1 = some v := by
  obtain ⟨rfl, kept⟩ := last
  let e : Entry α := ⟨start.store.digestOf key, v, (run before start).now⟩
  have files : start.Files e.digest key := rfl
  have hkey : key ∈ key :: keys (before ++ Op.set key v :: after) := List.mem_cons_self
  have own : ∀ k ∈ keys (before ++ Op.set key v :: after), (start.Files e.digest k ↔ k = key) :=
    fun k hk => files_iff apart files hkey (List.mem_cons_of_mem _ hk)
  have named {op : Op α} {k : String} (member : op ∈ after) (named : op.key? = some k) :
      k ∈ keys (before ++ Op.set key v :: after) :=
    mem_keys (List.mem_append_right before (List.mem_cons_of_mem (.set key v) member)) named
  have stored : e ∈ (run (before ++ [Op.set key v]) start).store.entries := by
    obtain ⟨others, _, _, same, -⟩ := set_eq (run before start).store key v (run before start).now
    rw [run_concat, Op.after, same, digestOf_run]
    exact List.mem_append_right _ List.mem_cons_self
  have split (mid : List (Op α)) : before ++ [Op.set key v] ++ mid = before ++ Op.set key v :: mid := by
    rw [List.append_assoc, List.singleton_append]
  have untouched : ∀ op ∈ after, ¬ op.Ends (start.Files e.digest) := by
    intro op member ends
    exact kept op member ((ends_congr fun k hk => own k (named member hk)).mp ends)
  have unexpired : ∀ mid op rest, after = mid ++ op :: rest →
      ¬ op.LapsesOn (start.Files e.digest) (run (before ++ [Op.set key v] ++ mid) start) := by
    rintro mid _ rest same ⟨k, rfl, files', lapsed⟩
    have member : Op.get k ∈ after := same ▸ List.mem_append_right _ List.mem_cons_self
    obtain rfl := (own k (named member rfl)).mp files'
    rw [split, current mid rest same] at lapsed
    cases lapsed
  have retained := run_retains empty regular stored untouched unexpired
  rw [split] at retained
  rcases retained with member | crowded
  · have distinct := (regular_run regular (before ++ Op.set key v :: after)).distinct
    have found : (run (before ++ Op.set key v :: after) start).store.find? key = some e :=
      (find?_eq_some_iff distinct).mpr ⟨member, (digestOf_run _ start key).symm⟩
    rw [← (run_sameTerms (before ++ Op.set key v :: after) start).ttl] at within
    rw [get, found]
    dsimp only
    rw [current_of_inTime (e := e) within]
    rfl
  · have crowd := crowded.crowd
    rw [since_congr fun k hk => own k (touched_subset hk)] at crowd
    omega

theorem contains_run : (run ops start).store.contains key = true ↔
    ∃ e ∈ (run ops start).store.entries, start.Files e.digest key := by
  rw [contains_iff, digestOf_run]
  exact exists_congr fun e => and_congr_right fun _ => eq_comm

theorem run_putsOut (empty : start.store.entries = []) (regular : Regular start.store)
    (apart : Apart start.store.algorithm (key :: keys ops)) {old : Entry α} {rest : List (Entry α)}
    (others : (run ops start).store.others key = old :: rest)
    (entries : (run (ops ++ [Op.set key v]) start).store.entries =
      rest ++ [⟨start.store.digestOf key, v, (run ops start).now⟩]) :
    ∃ oldest, PutsOut start ops key v oldest := by
  have later := @later_of_evicted _ start ops key v empty regular _ _ others
  rw [← entries] at later
  have member : old ∈ (run ops start).store.entries :=
    (others_sublist _ key).subset (others ▸ List.mem_cons_self)
  obtain ⟨before, oldest, after, split, files, -⟩ := run_origin empty ops old member
  have known : oldest ∈ key :: keys ops := by
    rw [split]
    exact List.mem_cons_of_mem _ mem_keys_set
  have own (k : String) (hk : k ∈ key :: keys ops) : start.Files old.digest k ↔ k = oldest :=
    files_iff apart files known hk
  refine ⟨oldest, ?_⟩
  constructor
  case stored => exact contains_run.mpr ⟨old, member, files⟩
  case gone =>
    refine Bool.not_eq_true _ ▸ fun stays => ?_
    obtain ⟨e, member, same⟩ := contains_run.mp stays
    exact (later e member).1 (same.symm.trans files)
  case others =>
    intro other hother ne stored
    obtain ⟨e, member, same⟩ := contains_run.mp stored
    rw [contains_run, entries]
    -- A value stored under the key before is replaced, not put out.
    by_cases new : e.digest = start.store.digestOf key
    · exact ⟨_, List.mem_append_right _ List.mem_cons_self, same.trans new⟩
    · have elsewhere : e ∈ (run ops start).store.others key := by
        rw [mem_others, digestOf_run]
        exact ⟨member, new⟩
      rcases List.mem_cons.mp (others ▸ elsewhere) with rfl | stays
      · exact (ne ((own other (List.mem_cons_of_mem _ hother)).mp same)).elim
      · exact ⟨e, List.mem_append_left _ stays, same⟩
  case touched =>
    rw [split]
    exact mem_touched_set
  case oldest =>
    intro other hother stored
    obtain ⟨e, member, same⟩ := contains_run.mp stored
    obtain ⟨k, recent, files'⟩ := (later e member).2
    have among {k : String} (hk : k ∈ touched (ops ++ [Op.set key v]) start) : k ∈ key :: keys ops := by
      have hk := touched_subset hk
      rw [keys_append, List.mem_append] at hk
      rcases hk with hk | hk
      · exact List.mem_cons_of_mem _ hk
      · exact List.mem_singleton.mp hk ▸ List.mem_cons_self
    rw [since_congr fun k hk => own k (among hk)] at recent
    rwa [apart other hother k (among (since_subset recent)) (same.trans files'.symm)]

theorem run_evicts (empty : start.store.entries = []) (regular : Regular start.store)
    (apart : Apart start.store.algorithm (key :: keys ops)) (v : α) :
    (run (ops ++ [Op.set key v]) start).store.evictions = (run ops start).store.evictions ∧
      (∀ other, (run ops start).store.contains other = true →
        (run (ops ++ [Op.set key v]) start).store.contains other = true) ∨
    (run (ops ++ [Op.set key v]) start).store.evictions = (run ops start).store.evictions + 1 ∧
      ∃ oldest, PutsOut start ops key v oldest := by
  have storing := set_storing (run ops start).store key v (run ops start).now
  have putsOut := @run_putsOut _ start ops key v empty regular apart
  have next : (run (ops ++ [Op.set key v]) start).store =
      (run ops start).store.set key v (run ops start).now := by rw [run_concat]; rfl
  rw [← digestOf_run ops] at putsOut
  rw [next] at putsOut ⊢
  generalize (run ops start).store.set key v (run ops start).now = c at storing next putsOut ⊢
  cases storing with
  | added =>
    refine .inl ⟨rfl, fun other stored => ?_⟩
    obtain ⟨e, member, same⟩ := contains_iff.mp stored
    refine contains_iff.mpr ?_
    by_cases new : e.digest = (run ops start).store.digestOf key
    · exact ⟨_, List.mem_append_right _ List.mem_cons_self, new.symm.trans same⟩
    · exact ⟨e, List.mem_append_left _ (mem_others.mpr ⟨member, new⟩), same⟩
  | evicted others => exact .inr ⟨rfl, putsOut others rfl⟩

/-- Nothing that is quiet changes which keys are stored, or their order. -/
theorem entries_of_quiet (quiet : op.Quiet s) : (op.after s).store.entries = s.store.entries := by
  cases op with
  | get key =>
    have unknown : s.store.find? key = none := Option.isNone_iff_eq_none.mp (Option.isSome_eq_false_iff.mp quiet)
    rw [Op.after, get, unknown]
  | contains | length => rfl
  | set | delete | clear | clock => cases quiet

theorem evictions_of_not_set (other : ∀ key v, op ≠ .set key v) :
    (op.after s).store.evictions = s.store.evictions := by
  cases op with
  | set key v => exact (other key v rfl).elim
  | get key =>
    obtain ⟨_, _, _, _, same, -⟩ := get_eq s.store key s.now
    rw [Op.after, same]
  | delete | clear | contains | length | clock => rfl

theorem faithful_of_empty (empty : start.store.entries = []) (regular : Regular start.store)
    (apart : Apart start.store.algorithm (key :: keys ops)) : Faithful start.store.capacity key ops start := by
  constructor
  case found => exact fun v => run_found empty apart
  case retained =>
    intro before v after last within current few
    exact run_retained empty regular apart last within current (Int.ofNat_lt.mp few)
  case evicts => exact run_evicts empty regular apart
  case spares =>
    intro op other
    rw [run_concat]
    exact evictions_of_not_set other
  case quiet =>
    intro op quiet
    rw [run_concat]
    exact entries_of_quiet quiet

/-- Let a new store have room for one entry at least. After any sequence of operations, whatever the clock does in
between, a lookup finds what was set last under a key, unless that was deleted, has expired or had to give way to as
many other keys as there is room for; and the key that gives way is the one that was set or hit least recently. -/
theorem answers_follow_history {capacity : Int} (positive : 1 ≤ capacity) (ttl : Option Quantity)
    {algorithm : Digest.Algorithm} (start : Float) {key : String} {ops : List (Op α)}
    (apart : Apart algorithm (key :: keys ops)) :
    ∃ fresh, make capacity ttl algorithm = .ok fresh ∧ Faithful capacity key ops ⟨fresh, start⟩ := by
  obtain ⟨fresh, made, rfl, -, rfl, empty, size, -⟩ := @make_ok α capacity positive ttl algorithm
  have faithful := @faithful_of_empty α ⟨fresh, start⟩ ops key empty (regular_of_empty empty size) apart
  exact ⟨fresh, made, faithful⟩

def visits : List (Op Nat) := [Op.set "a" 1, .set "b" 2, .get "a", .clock 1030.0, .set "c" 3]

def visitStore : Lru Nat := { capacity := 2, capacity_pos := Nat.zero_lt_two, ttl := some (.whole 60) }

/-- The first of two entries is hit before the third comes, so it is still found, and the second one is not. -/
theorem answers_follow_history_visits :
    (1 : Int) ≤ 2 ∧ Apart .xxhash64 ("a" :: keys visits) ∧
      ∃ fresh : Lru Nat, make 2 (some (.whole 60)) .xxhash64 = .ok fresh ∧
        Faithful 2 "a" visits ⟨fresh, 1000.0⟩ ∧
        ((run visits ⟨fresh, 1000.0⟩).store.get "a" (run visits ⟨fresh, 1000.0⟩).now).1 = some 1 ∧
        (run visits ⟨fresh, 1000.0⟩).store.contains "b" = false := by
  have apart : Apart .xxhash64 ("a" :: keys visits) := by
    unfold Apart
    decide +kernel
  obtain ⟨fresh, made, faithful⟩ := @answers_follow_history Nat 2 (by decide) (some (.whole 60)) _ 1000.0 _ _ apart
  obtain rfl : visitStore = fresh := Except.ok.inj made
  refine ⟨by decide, apart, visitStore, made, faithful, ?_, by decide +kernel⟩
  refine faithful.retained [] 1 [Op.set "b" 2, .get "a", .clock 1030.0, .set "c" 3] ⟨rfl, ?_⟩ ?_ ?_ ?_
  case refine_1 => simp [Op.Ends]
  case refine_2 =>
    rintro q ⟨⟩
    unfold Quantity.Exceeds
    decide +kernel
  case refine_3 =>
    -- The second of the four operations is the lookup.
    intro mid rest same
    obtain _ | ⟨_, _ | ⟨_, _ | ⟨_, _ | ⟨_, more⟩⟩⟩⟩ := mid
    · cases same
    · cases same
      decide +kernel
    · cases same
    · cases same
    · simp at same
  case refine_4 => decide +kernel

end ScreenPlan.Lru
