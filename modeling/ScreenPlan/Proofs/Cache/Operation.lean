import Mathlib
import ScreenPlan.Proofs.Cache.Lru

/-!
# Operations on a store

A lookup meets no entry, an expired one or a current one, and a new value finds room or puts out the first of the
other entries. A run is any sequence of operations, between which the clock may be set to any time; over a run no
two entries have the same digest, no more entries are held than there is room for, and the size is that of the store.
-/

namespace ScreenPlan.Lru
variable {α : Type} {c : Lru α} {key : String} {now : Float} {e : Entry α} {v : α}

/-! ### Single operations -/

/-- The ways in which a lookup can go. -/
inductive Lookup (c : Lru α) (key : String) (now : Float) : Option α → Lru α → Prop
  | absent (unknown : c.find? key = none) : Lookup c key now none { c with misses := c.misses + 1 }
  | lapsed {e : Entry α} (found : c.find? key = some e) (old : c.expired now e = true) :
      Lookup c key now none
        { c with entries := c.others key, size := (c.others key).length, misses := c.misses + 1 }
  | hit {e : Entry α} (found : c.find? key = some e) (current : c.expired now e = false) :
      Lookup c key now (some e.value) { c with entries := c.others key ++ [e], hits := c.hits + 1 }

/-- The ways in which a new value can be stored. -/
inductive Storing (c : Lru α) (key : String) (v : α) (now : Float) : Lru α → Prop
  | added (room : (c.others key).length < c.capacity) :
      Storing c key v now
        { c with
          entries := c.others key ++ [⟨c.digestOf key, v, now⟩]
          size := (c.others key).length + 1 }
  | evicted {oldest : Entry α} {rest : List (Entry α)} (others : c.others key = oldest :: rest)
      (full : c.capacity ≤ rest.length + 1) :
      Storing c key v now
        { c with
          entries := rest ++ [⟨c.digestOf key, v, now⟩]
          size := rest.length + 1
          evictions := c.evictions + 1 }

theorem get_lookup (c : Lru α) (key : String) (now : Float) :
    Lookup c key now (c.get key now).1 (c.get key now).2 := by
  unfold get
  cases found : c.find? key with
  | none => exact .absent found
  | some e =>
    dsimp only
    cases old : c.expired now e with
    | true => exact .lapsed found old
    | false => exact .hit found old

theorem set_storing (c : Lru α) (key : String) (v : α) (now : Float) : Storing c key v now (c.set key v now) := by
  unfold set
  dsimp only
  rw [List.length_append, List.length_singleton]
  split
  · next full =>
    cases others : c.others key with
    | nil =>
      have := c.capacity_pos
      rw [others, List.length_nil] at full
      omega
    | cons oldest rest =>
      rw [others, List.length_cons] at full
      rw [List.cons_append, List.drop_one, List.tail_cons, List.length_append, List.length_singleton]
      exact .evicted others (by omega)
  · next room =>
    exact .added (by omega)

/-- No two entries have the same digest, there is room for all, and the size is what it says. -/
structure Regular (c : Lru α) : Prop where
  distinct : (c.entries.map Entry.digest).Nodup
  bounded : c.entries.length ≤ c.capacity
  size : c.size = c.entries.length

/-- Among entries that all have digests of their own, a digest finds its one entry. -/
theorem find?_eq_some_iff (distinct : (c.entries.map Entry.digest).Nodup) :
    c.find? key = some e ↔ e ∈ c.entries ∧ e.digest = c.digestOf key := by
  refine ⟨mem_of_find?, fun ⟨member, digest⟩ => ?_⟩
  cases found : c.find? key with
  | none =>
    have other := List.find?_eq_none.mp found e member
    exact (other (decide_eq_true digest)).elim
  | some e' =>
    obtain ⟨member', digest'⟩ := mem_of_find? found
    rw [List.inj_on_of_nodup_map distinct member' member (digest'.trans digest.symm)]

theorem contains_iff : c.contains key = true ↔ ∃ e ∈ c.entries, e.digest = c.digestOf key := by
  rw [contains, find?, List.find?_isSome]
  simp only [decide_eq_true_eq]

theorem others_sublist (c : Lru α) (key : String) : (c.others key).Sublist c.entries := List.filter_sublist

theorem length_others (distinct : (c.entries.map Entry.digest).Nodup) :
    (c.others key).length + (if c.contains key then 1 else 0) = c.entries.length := by
  have parts := List.length_eq_countP_add_countP (fun e => decide (e.digest = c.digestOf key)) (l := c.entries)
  have own : c.entries.countP (fun e => decide (e.digest = c.digestOf key)) =
      (c.entries.map Entry.digest).count (c.digestOf key) := by
    rw [List.count, List.countP_map]
    exact List.countP_congr fun e _ => by simp
  have rest : c.entries.countP (fun e => ¬ decide (e.digest = c.digestOf key) = true) = (c.others key).length := by
    rw [others, ← List.countP_eq_length_filter]
    exact List.countP_congr fun e _ => by simp
  have known : c.contains key = true ↔ c.digestOf key ∈ c.entries.map Entry.digest := by
    rw [contains_iff, List.mem_map]
  rw [own, rest, distinct.count] at parts
  simp only [known]
  omega

/-- A list of other entries with one entry for the key itself is as distinct as before. -/
theorem nodup_append_new {kept : List (Entry α)} (distinct : (c.entries.map Entry.digest).Nodup)
    (among : kept.Sublist (c.others key)) (digest : e.digest = c.digestOf key) :
    ((kept ++ [e]).map Entry.digest).Nodup := by
  rw [List.map_append, List.map_singleton, List.nodup_append]
  refine ⟨distinct.sublist ((among.trans (others_sublist c key)).map _), List.nodup_singleton _, ?_⟩
  intro a known b own same
  obtain ⟨other, member, rfl⟩ := List.mem_map.mp known
  rw [List.mem_singleton.mp own, digest] at same
  exact (mem_others.mp (among.subset member)).2 same

theorem regular_get (regular : Regular c) (key : String) (now : Float) : Regular (c.get key now).2 := by
  obtain ⟨distinct, bounded, size⟩ := regular
  have fewer := (others_sublist c key).length_le
  have lookup := get_lookup c key now
  generalize (c.get key now).1 = answer at lookup
  generalize (c.get key now).2 = c' at lookup ⊢
  cases lookup with
  | absent => exact ⟨distinct, bounded, size⟩
  | lapsed found =>
    exact ⟨distinct.sublist ((others_sublist c key).map _), Nat.le_trans fewer bounded, rfl⟩
  | @hit e found =>
    have parts := @length_others _ c key distinct
    rw [contains, found, Option.isSome_some, if_pos rfl] at parts
    have length : (c.others key ++ [e]).length = c.entries.length := by
      rw [List.length_append, List.length_singleton, parts]
    refine ⟨nodup_append_new distinct (List.Sublist.refl _) (mem_of_find? found).2, ?_, ?_⟩
    · exact Nat.le_trans (Nat.le_of_eq length) bounded
    · exact size.trans length.symm

theorem regular_set (regular : Regular c) (key : String) (v : α) (now : Float) : Regular (c.set key v now) := by
  obtain ⟨distinct, bounded, -⟩ := regular
  have fewer := (others_sublist c key).length_le
  have storing := set_storing c key v now
  generalize c.set key v now = c' at storing ⊢
  cases storing with
  | added room =>
    refine ⟨nodup_append_new distinct (List.Sublist.refl _) rfl, ?_, ?_⟩
    all_goals rw [List.length_append, List.length_singleton]
    exact room
  | @evicted oldest rest others full =>
    have among : rest.Sublist (c.others key) := others ▸ List.sublist_cons_self oldest rest
    rw [others, List.length_cons] at fewer
    refine ⟨nodup_append_new distinct among rfl, ?_, ?_⟩
    all_goals rw [List.length_append, List.length_singleton]
    exact Nat.le_trans fewer bounded

theorem regular_delete (regular : Regular c) (key : String) : Regular (c.delete key).2 :=
  ⟨regular.distinct.sublist ((others_sublist c key).map _),
    Nat.le_trans (others_sublist c key).length_le regular.bounded, rfl⟩

theorem regular_clear (c : Lru α) : Regular c.clear := ⟨List.nodup_nil, Nat.zero_le _, rfl⟩

/-! ### Runs -/

/-- A store and the time on the clock. -/
structure Timed (α : Type) where
  store : Lru α
  now : Float

/-- The key is stored, and its entry has expired. -/
def Timed.lapsed (s : Timed α) (key : String) : Bool := (s.store.find? key).any fun e => s.store.expired s.now e

inductive Op (α : Type) where
  | set (key : String) (v : α)
  | get (key : String)
  | delete (key : String)
  | clear
  | contains (key : String)
  | length
  | clock (time : Float)

/-- The store after an operation; what the operation answers is left aside. -/
def Op.after (s : Timed α) : Op α → Timed α
  | .set key v => { s with store := s.store.set key v s.now }
  | .get key => { s with store := (s.store.get key s.now).2 }
  | .delete key => { s with store := (s.store.delete key).2 }
  | .clear => { s with store := s.store.clear }
  | .contains _ | .length => s
  | .clock time => { s with now := time }

def run (ops : List (Op α)) (s : Timed α) : Timed α := ops.foldl Op.after s

/-- The operations of a run, each with the store that it meets. -/
def trace : List (Op α) → Timed α → List (Timed α × Op α)
  | [], _ => []
  | op :: ops, s => (s, op) :: trace ops (op.after s)

variable {s : Timed α} {ops ops' : List (Op α)} {op : Op α}

theorem run_append : run (ops ++ ops') s = run ops' (run ops s) := List.foldl_append

theorem run_concat : run (ops ++ [op]) s = op.after (run ops s) := run_append

theorem trace_append : trace (ops ++ ops') s = trace ops s ++ trace ops' (run ops s) := by
  induction ops generalizing s with
  | nil => rfl
  | cons op ops ih =>
    rw [List.cons_append, trace, trace, ih]
    rfl

/-- What was settled when the store was made. -/
structure SameTerms (c c' : Lru α) : Prop where
  capacity : c'.capacity = c.capacity
  ttl : c'.ttl = c.ttl
  algorithm : c'.algorithm = c.algorithm

theorem after_sameTerms (s : Timed α) (op : Op α) : SameTerms s.store (op.after s).store := by
  cases op with
  | set key v =>
    obtain ⟨_, _, _, same, -⟩ := set_eq s.store key v s.now
    rw [Op.after, same]
    exact ⟨rfl, rfl, rfl⟩
  | get key =>
    obtain ⟨_, _, _, _, same, -⟩ := get_eq s.store key s.now
    rw [Op.after, same]
    exact ⟨rfl, rfl, rfl⟩
  | delete | clear | contains | length | clock => exact ⟨rfl, rfl, rfl⟩

theorem run_sameTerms (ops : List (Op α)) (s : Timed α) : SameTerms s.store (run ops s).store := by
  induction ops generalizing s with
  | nil => exact ⟨rfl, rfl, rfl⟩
  | cons op ops ih =>
    obtain ⟨capacity, ttl, algorithm⟩ := after_sameTerms s op
    obtain ⟨capacity', ttl', algorithm'⟩ := ih (op.after s)
    exact ⟨capacity'.trans capacity, ttl'.trans ttl, algorithm'.trans algorithm⟩

theorem digestOf_run (ops : List (Op α)) (s : Timed α) (key : String) :
    (run ops s).store.digestOf key = s.store.digestOf key := by
  rw [digestOf, digestOf, (run_sameTerms ops s).algorithm]

theorem regular_after (regular : Regular s.store) (op : Op α) : Regular (op.after s).store := by
  cases op with
  | set key v => exact regular_set regular key v s.now
  | get key => exact regular_get regular key s.now
  | delete key => exact regular_delete regular key
  | clear => exact regular_clear s.store
  | contains | length | clock => exact regular

theorem regular_run (regular : Regular s.store) (ops : List (Op α)) : Regular (run ops s).store := by
  induction ops generalizing s with
  | nil => exact regular
  | cons op ops ih => exact ih (regular_after regular op)

/-! ### New stores -/

theorem make_ok {capacity : Int} (positive : 1 ≤ capacity) (ttl : Option Quantity) (algorithm : Digest.Algorithm) :
    ∃ fresh : Lru α, make capacity ttl algorithm = .ok fresh ∧ (fresh.capacity : Int) = capacity ∧
      fresh.ttl = ttl ∧ fresh.algorithm = algorithm ∧ fresh.entries = [] ∧ fresh.size = 0 ∧
      fresh.hits = 0 ∧ fresh.misses = 0 ∧ fresh.evictions = 0 := by
  have enough : 0 < capacity.toNat := by omega
  refine ⟨_, by rw [make, dif_pos enough], ?_, rfl, rfl, rfl, rfl, rfl, rfl, rfl⟩
  exact Int.toNat_of_nonneg (by omega)

theorem regular_of_empty (empty : c.entries = []) (size : c.size = 0) : Regular c := by
  refine ⟨?_, ?_, ?_⟩ <;> rw [empty]
  · exact List.nodup_nil
  · exact Nat.zero_le _
  · exact size

end ScreenPlan.Lru
