import ScreenPlan.Cache.Lru

/-!
# What a store holds

Looking up a key adds nothing, and storing a value adds it alone, in place of what had the same digest. So
whatever is found was stored, and it has not expired.
-/

namespace ScreenPlan.Lru
variable {α : Type} {c : Lru α} {key : String} {now : Float} {e : Entry α} {v : α}

theorem mem_others : e ∈ c.others key ↔ e ∈ c.entries ∧ e.digest ≠ c.digestOf key := by
  rw [others, List.mem_filter, decide_eq_true_eq]

theorem mem_of_find? (found : c.find? key = some e) : e ∈ c.entries ∧ e.digest = c.digestOf key := by
  refine ⟨List.mem_of_find?_eq_some found, ?_⟩
  have digest := List.find?_some found
  exact of_decide_eq_true digest

theorem find?_among_others {kept : List (Entry α)} (among : ∀ e ∈ kept, e ∈ c.others key) :
    kept.find? (fun e => decide (e.digest = c.digestOf key)) = none := by
  refine List.find?_eq_none.mpr fun e member same => ?_
  exact (mem_others.mp (among e member)).2 (of_decide_eq_true same)

/-! ### Lookups -/

theorem get_some (found : (c.get key now).1 = some v) :
    ∃ e ∈ c.entries, e.digest = c.digestOf key ∧ e.value = v ∧ c.expired now e = false := by
  unfold get at found
  split at found
  · cases found
  · next e known =>
    split at found
    · cases found
    · next current =>
      obtain ⟨member, digest⟩ := mem_of_find? known
      exact ⟨e, member, digest, Option.some.inj found, Bool.not_eq_true _ ▸ current⟩

theorem mem_entries_of_get (found : (c.get key now).1 = some v) : ∃ e ∈ c.entries, e.value = v := by
  obtain ⟨e, member, -, value, -⟩ := get_some found
  exact ⟨e, member, value⟩

/-- The way in which a lookup changes a store. -/
theorem get_eq (c : Lru α) (key : String) (now : Float) : ∃ entries size hits misses,
    (c.get key now).2 = { c with entries := entries, size := size, hits := hits, misses := misses } ∧
      ∀ e ∈ entries, e ∈ c.entries := by
  unfold get
  split
  · exact ⟨_, _, _, _, rfl, fun _ he => he⟩
  · next known found =>
    split
    · exact ⟨_, _, _, _, rfl, fun _ he => (mem_others.mp he).1⟩
    · refine ⟨_, _, _, _, rfl, fun e he => ?_⟩
      rcases List.mem_append.mp he with other | same
      · exact (mem_others.mp other).1
      · rw [List.mem_singleton.mp same]
        exact (mem_of_find? found).1

theorem mem_entries_get (member : e ∈ (c.get key now).2.entries) : e ∈ c.entries := by
  obtain ⟨entries, _, _, _, same, kept⟩ := get_eq c key now
  rw [same] at member
  exact kept e member

@[simp] theorem get_ttl : (c.get key now).2.ttl = c.ttl := by
  obtain ⟨_, _, _, _, same, -⟩ := get_eq c key now
  rw [same]

@[simp] theorem get_algorithm : (c.get key now).2.algorithm = c.algorithm := by
  obtain ⟨_, _, _, _, same, -⟩ := get_eq c key now
  rw [same]

@[simp] theorem expired_get {later : Float} : (c.get key now).2.expired later e = c.expired later e := by
  rw [expired, get_ttl, expired]

/-! ### New values -/

/-- The way in which a new value changes a store; the first of the other entries may have to give way. -/
theorem set_eq (c : Lru α) (key : String) (v : α) (now : Float) : ∃ kept size evictions,
    c.set key v now =
      { c with entries := kept ++ [⟨c.digestOf key, v, now⟩], size := size, evictions := evictions } ∧
      ∀ e ∈ kept, e ∈ c.others key := by
  unfold set
  dsimp only
  split
  · next full =>
    -- There is room for one entry at least, so the new one is not the first.
    cases others : c.others key with
    | nil =>
      have := c.capacity_pos
      rw [others, List.nil_append, List.length_singleton] at full
      omega
    | cons e es => exact ⟨es, _, _, rfl, fun _ he => List.mem_cons_of_mem _ he⟩
  · exact ⟨_, _, _, rfl, fun _ he => he⟩

/-- What is in a store after a new value: that value, and of the rest what has another digest. -/
theorem mem_set (member : e ∈ (c.set key v now).entries) :
    e ∈ c.entries ∧ e.digest ≠ c.digestOf key ∨ e = ⟨c.digestOf key, v, now⟩ := by
  obtain ⟨kept, _, _, same, among⟩ := set_eq c key v now
  rw [same] at member
  rcases List.mem_append.mp member with old | new
  · exact .inl (mem_others.mp (among e old))
  · exact .inr (List.mem_singleton.mp new)

/-- Storing a value adds no other. -/
theorem mem_entries_set (member : e ∈ (c.set key v now).entries) : e ∈ c.entries ∨ e.value = v := by
  rcases mem_set member with ⟨old, -⟩ | rfl
  · exact .inl old
  · exact .inr rfl

@[simp] theorem set_ttl : (c.set key v now).ttl = c.ttl := by
  obtain ⟨_, _, _, same, -⟩ := set_eq c key v now
  rw [same]

@[simp] theorem set_algorithm : (c.set key v now).algorithm = c.algorithm := by
  obtain ⟨_, _, _, same, -⟩ := set_eq c key v now
  rw [same]

theorem find?_set : (c.set key v now).find? key = some ⟨c.digestOf key, v, now⟩ := by
  obtain ⟨kept, _, _, same, among⟩ := set_eq c key v now
  have digest : (c.set key v now).digestOf key = c.digestOf key := by
    rw [digestOf, set_algorithm]
    rfl
  rw [find?, digest, same]
  dsimp only
  rw [List.find?_append, find?_among_others among, Option.none_or, List.find?_singleton]
  exact if_pos (decide_eq_true rfl)

@[simp] theorem expired_set {later : Float} : (c.set key v now).expired later e = c.expired later e := by
  rw [expired, set_ttl, expired]

/-- What was stored last is found again until it expires. -/
theorem get_set {later : Float} (current : c.expired later ⟨c.digestOf key, v, now⟩ = false) :
    ((c.set key v now).get key later).1 = some v := by
  rw [get, find?_set]
  dsimp only
  rw [expired_set, current]
  rfl

theorem get_set_lapsed {later : Float} (old : c.expired later ⟨c.digestOf key, v, now⟩ = true) :
    ((c.set key v now).get key later).1 = none := by
  rw [get, find?_set]
  dsimp only
  rw [expired_set, old]
  rfl

/-! ### Figures -/

/-- Every lookup is a hit or a miss, and counted as what it is. -/
theorem get_figures (c : Lru α) (key : String) (now : Float) :
    (c.get key now).2.hits = c.hits + (if (c.get key now).1.isSome then 1 else 0) ∧
      (c.get key now).2.misses = c.misses + if (c.get key now).1.isSome then 0 else 1 := by
  unfold get
  split
  · exact ⟨rfl, rfl⟩
  · split <;> exact ⟨rfl, rfl⟩

theorem set_figures (c : Lru α) (key : String) (v : α) (now : Float) :
    (c.set key v now).hits = c.hits ∧ (c.set key v now).misses = c.misses := by
  obtain ⟨_, _, _, same, -⟩ := set_eq c key v now
  rw [same]
  exact ⟨rfl, rfl⟩

end ScreenPlan.Lru
