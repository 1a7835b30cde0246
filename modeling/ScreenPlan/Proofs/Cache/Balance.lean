import ScreenPlan.Proofs.Cache.Operation

/-!
# The figures of a store

Entries come in by storing a value under a key that has none, and they go by eviction, by a lookup that meets them
expired, by deletion or when the store is cleared. Over a run what came in is what is left and what has gone, and
every lookup has been counted as a hit or as a miss.
-/

namespace ScreenPlan.Lru
variable {α : Type} {s : Timed α}

/-! ### What is counted -/

def Op.looksUp : Op α → Bool
  | .get _ => true
  | _ => false

/-- A lookup that answers with a stored value. -/
def Op.finds (s : Timed α) : Op α → Bool
  | .get key => (s.store.get key s.now).1.isSome
  | _ => false

/-- A value for a key under which nothing is stored. -/
def Op.enters (s : Timed α) : Op α → Bool
  | .set key _ => !s.store.contains key
  | _ => false

/-- A lookup that drops an expired entry. -/
def Op.lapses (s : Timed α) : Op α → Bool
  | .get key => s.lapsed key
  | _ => false

/-- A deletion that answers that there was something to delete. -/
def Op.removes (s : Timed α) : Op α → Bool
  | .delete key => (s.store.delete key).1
  | _ => false

/-- The entries that are dropped because the store is cleared. -/
def Op.cleared (s : Timed α) : Op α → Nat
  | .clear => s.store.length
  | _ => 0

/-! ### One operation -/

theorem after_lookups (s : Timed α) (op : Op α) :
    (op.after s).store.hits = s.store.hits + (if op.finds s then 1 else 0) ∧
      (op.after s).store.hits + (op.after s).store.misses =
        s.store.hits + s.store.misses + if op.looksUp then 1 else 0 := by
  cases op with
  | get key =>
    obtain ⟨hits, misses⟩ := get_figures s.store key s.now
    refine ⟨hits, ?_⟩
    show (s.store.get key s.now).2.hits + (s.store.get key s.now).2.misses = _ + 1
    rw [hits, misses]
    split <;> omega
  | set key v =>
    obtain ⟨hits, misses⟩ := set_figures s.store key v s.now
    refine ⟨hits, ?_⟩
    show (s.store.set key v s.now).hits + (s.store.set key v s.now).misses = _
    rw [hits, misses]
    rfl
  | delete | clear | contains | length | clock => exact ⟨rfl, rfl⟩

theorem get_conserves (regular : Regular s.store) (key : String) :
    (s.store.get key s.now).2.length + (s.store.get key s.now).2.evictions + (if s.lapsed key then 1 else 0) =
      s.store.length + s.store.evictions := by
  have parts := @length_others _ s.store key regular.distinct
  have lookup := get_lookup s.store key s.now
  rw [contains] at parts
  rw [Timed.lapsed]
  generalize (s.store.get key s.now).1 = answer at lookup
  generalize (s.store.get key s.now).2 = c' at lookup ⊢
  simp only [length]
  cases lookup with
  | absent unknown =>
    rw [unknown]
    rfl
  | lapsed found old =>
    rw [found, Option.isSome_some, if_pos rfl] at parts
    rw [found, Option.any_some, old, if_pos rfl]
    dsimp only
    omega
  | hit found current =>
    rw [found, Option.isSome_some, if_pos rfl] at parts
    rw [found, Option.any_some, current, if_neg Bool.false_ne_true]
    dsimp only
    rw [List.length_append, List.length_singleton]
    omega

theorem set_conserves (regular : Regular s.store) (key : String) (v : α) :
    (s.store.set key v s.now).length + (s.store.set key v s.now).evictions =
      s.store.length + s.store.evictions + if !s.store.contains key then 1 else 0 := by
  have parts := @length_others _ s.store key regular.distinct
  have storing := set_storing s.store key v s.now
  have known : (if !s.store.contains key then 1 else 0) + (if s.store.contains key then 1 else 0) = 1 := by
    cases s.store.contains key <;> rfl
  generalize s.store.set key v s.now = c' at storing ⊢
  simp only [length]
  cases storing with
  | added =>
    dsimp only
    rw [List.length_append, List.length_singleton]
    omega
  | evicted others =>
    rw [others, List.length_cons] at parts
    dsimp only
    rw [List.length_append, List.length_singleton]
    omega

/-- What an operation brings in stays, is evicted or goes in one of the other ways. -/
theorem after_conserves (regular : Regular s.store) (op : Op α) :
    (op.after s).store.length + (op.after s).store.evictions + (if op.lapses s then 1 else 0) +
        (if op.removes s then 1 else 0) + op.cleared s =
      s.store.length + s.store.evictions + if op.enters s then 1 else 0 := by
  cases op with
  | set key v => exact set_conserves regular key v
  | get key => exact get_conserves regular key
  | delete key =>
    have parts := @length_others _ s.store key regular.distinct
    show (s.store.others key).length + s.store.evictions + 0 + (if s.store.contains key then 1 else 0) + 0 =
      s.store.entries.length + s.store.evictions + 0
    omega
  | clear =>
    show 0 + s.store.evictions + 0 + 0 + s.store.length = s.store.length + s.store.evictions + 0
    omega
  | contains | length | clock => rfl

/-! ### Runs -/

theorem run_lookups (ops : List (Op α)) (s : Timed α) :
    (run ops s).store.hits = s.store.hits + (trace ops s).countP (fun e => e.2.finds e.1) ∧
      (run ops s).store.hits + (run ops s).store.misses =
        s.store.hits + s.store.misses + (trace ops s).countP fun e => e.2.looksUp := by
  induction ops generalizing s with
  | nil => exact ⟨rfl, rfl⟩
  | cons op ops ih =>
    obtain ⟨found, asked⟩ := after_lookups s op
    obtain ⟨found', asked'⟩ := ih (op.after s)
    have next : run (op :: ops) s = run ops (op.after s) := rfl
    rw [next, trace, List.countP_cons, List.countP_cons]
    dsimp only
    omega

theorem run_conserves (regular : Regular s.store) (ops : List (Op α)) :
    (run ops s).store.length + (run ops s).store.evictions + (trace ops s).countP (fun e => e.2.lapses e.1) +
        (trace ops s).countP (fun e => e.2.removes e.1) + ((trace ops s).map fun e => e.2.cleared e.1).sum =
      s.store.length + s.store.evictions + (trace ops s).countP fun e => e.2.enters e.1 := by
  induction ops generalizing s with
  | nil => rfl
  | cons op ops ih =>
    have first := after_conserves regular op
    have later := ih (regular_after regular op)
    have next : run (op :: ops) s = run ops (op.after s) := rfl
    rw [next, trace, List.countP_cons, List.countP_cons, List.countP_cons, List.map_cons, List.sum_cons]
    dsimp only
    omega

/-- The state of a store and its figures after a run, in terms of the operations of the run. -/
structure Balanced (capacity : Int) (ops : List (Op α)) (start : Timed α) : Prop where
  distinct : ((run ops start).store.entries.map Entry.digest).Nodup
  bounded : (run ops start).store.length ≤ capacity
  size : (run ops start).store.stats.size = (run ops start).store.length
  asked : (run ops start).store.hits + (run ops start).store.misses =
    (trace ops start).countP fun e => e.2.looksUp
  found : (run ops start).store.hits = (trace ops start).countP fun e => e.2.finds e.1
  conserved : (trace ops start).countP (fun e => e.2.enters e.1) =
    (run ops start).store.length + (run ops start).store.evictions +
      (trace ops start).countP (fun e => e.2.lapses e.1) + (trace ops start).countP (fun e => e.2.removes e.1) +
      ((trace ops start).map fun e => e.2.cleared e.1).sum

/-- Let a new store have room for one entry at least. After any sequence of operations, whatever the clock does in
between, its digests are distinct, it holds no more than there is room for, its figures agree with the answers to the
lookups, and every entry that came in is still there or has gone in one of four ways. -/
theorem figures_balance {capacity : Int} (positive : 1 ≤ capacity) (ttl : Option Quantity)
    (algorithm : Digest.Algorithm) (start : Float) (ops : List (Op α)) :
    ∃ fresh, make capacity ttl algorithm = .ok fresh ∧ Balanced capacity ops ⟨fresh, start⟩ := by
  obtain ⟨fresh, made, room, -, -, empty, size, hits, misses, evictions⟩ := @make_ok α capacity positive ttl algorithm
  refine ⟨fresh, made, ?_⟩
  have regular : Regular fresh := regular_of_empty empty size
  obtain ⟨distinct, bounded, size'⟩ := regular_run (s := ⟨fresh, start⟩) regular ops
  obtain ⟨found, asked⟩ := run_lookups ops ⟨fresh, start⟩
  have conserved := run_conserves (s := ⟨fresh, start⟩) regular ops
  have capacity' := (run_sameTerms ops ⟨fresh, start⟩).capacity
  dsimp only at found asked conserved capacity'
  have none : fresh.length = 0 := by
    rw [length, empty]
    rfl
  constructor
  case distinct => exact distinct
  case bounded =>
    rw [← room, ← capacity']
    exact Int.ofNat_le.mpr bounded
  case size => exact congrArg Int.ofNat size'
  case asked => omega
  case found => omega
  case conserved => omega

def notes : List (Op Nat) :=
  [.set "a" 1, .set "b" 2, .get "a", .set "c" 3, .get "b", .clock 1100.0, .get "a", .delete "c", .delete "c",
    .set "d" 4, .clear]

def noteStore : Lru Nat := { capacity := 2, capacity_pos := Nat.zero_lt_two, ttl := some (.whole 60) }

/-- Of four notes one is put out, one has expired, one is deleted and one goes when the store is cleared. -/
theorem figures_balance_notes :
    (1 : Int) ≤ 2 ∧ ∃ fresh : Lru Nat, make 2 (some (.whole 60)) .xxhash64 = .ok fresh ∧
      Balanced 2 notes ⟨fresh, 1000.0⟩ ∧
      (trace notes ⟨fresh, 1000.0⟩).countP (fun e => e.2.enters e.1) = 4 ∧
      (run notes ⟨fresh, 1000.0⟩).store.evictions = 1 ∧
      (trace notes ⟨fresh, 1000.0⟩).countP (fun e => e.2.lapses e.1) = 1 ∧
      (trace notes ⟨fresh, 1000.0⟩).countP (fun e => e.2.removes e.1) = 1 ∧
      ((trace notes ⟨fresh, 1000.0⟩).map fun e => e.2.cleared e.1).sum = 1 := by
  obtain ⟨fresh, made, balanced⟩ :=
    @figures_balance Nat 2 (by decide) (some (.whole 60)) .xxhash64 1000.0 notes
  obtain rfl : noteStore = fresh := Except.ok.inj made
  refine ⟨by decide, noteStore, made, balanced, ?_, ?_, ?_, ?_, ?_⟩ <;> decide +kernel

end ScreenPlan.Lru
