import ScreenPlan.Proofs.Cache.Operation

/-!
# What a store retains

Every entry goes back to the last value that was stored under its key, and the entries stand in the order in which
their keys were last set or hit. So an entry is put out only if as many other keys as there is room for have been set
or hit since its own, and until then a lookup finds it unless it was deleted or has expired.
-/

namespace ScreenPlan.Lru
variable {α : Type} {start s : Timed α} {ops ops' : List (Op α)} {op : Op α} {e : Entry α} {key : String} {v : α}

/-! ### Looking back over a run -/

/-- Replaces or removes what is stored under a key of this kind. -/
def Op.Ends (own : String → Prop) : Op α → Prop
  | .set key _ | .delete key => own key
  | .clear => True
  | _ => False

def Op.key? : Op α → Option String
  | .set key _ | .get key | .delete key | .contains key => some key
  | _ => none

def keys (ops : List (Op α)) : List String := ops.filterMap Op.key?

/-- The key that is set or hit. -/
def Op.touches (s : Timed α) : Op α → Option String
  | .set key _ => some key
  | .get key => if (s.store.get key s.now).1.isSome then some key else none
  | _ => none

/-- The keys that were set or hit over a run, the latest one last. -/
def touched (ops : List (Op α)) (start : Timed α) : List String :=
  (trace ops start).filterMap fun e => e.2.touches e.1

/-- What comes after the last key of this kind. -/
def since (own : String → Prop) [DecidablePred own] (touched : List String) : List String :=
  touched.rtakeWhile fun key => decide (¬ own key)

/-- The key has this digest. -/
def Timed.Files (s : Timed α) (digest key : String) : Prop := s.store.digestOf key = digest

instance (s : Timed α) (digest : String) : DecidablePred (s.Files digest) :=
  fun key => inferInstanceAs (Decidable (s.store.digestOf key = digest))

section
variable {own own' : String → Prop} [DecidablePred own] [DecidablePred own'] {touched : List String} {k : String}

theorem since_concat : since own (touched ++ [k]) = if own k then [] else since own touched ++ [k] := by
  rw [since, List.rtakeWhile_concat]
  by_cases mine : own k
  · rw [if_pos mine, if_neg (by simpa using mine)]
  · rw [if_neg mine, if_pos (decide_eq_true mine)]
    rfl

theorem since_congr (same : ∀ k ∈ touched, own k ↔ own' k) : since own touched = since own' touched := by
  induction touched using List.reverseRecOn with
  | nil => rfl
  | append_singleton touched k ih =>
    rw [since_concat, since_concat, ih fun j hj => same j (List.mem_append_left _ hj)]
    exact if_congr (same k (List.mem_append_right _ List.mem_cons_self)) rfl rfl

theorem since_subset : since own touched ⊆ touched := (List.rtakeWhile_suffix _ _).subset

end

theorem ends_congr {own own' : String → Prop} (same : ∀ k, op.key? = some k → (own k ↔ own' k)) :
    op.Ends own ↔ op.Ends own' := by
  cases op with
  | set key v => exact same key rfl
  | delete key => exact same key rfl
  | get | clear | contains | length | clock => exact Iff.rfl

theorem keys_append : keys (ops ++ ops') = keys ops ++ keys ops' := List.filterMap_append

theorem touched_concat : touched (ops ++ [op]) start = touched ops start ++ (op.touches (run ops start)).toList := by
  rw [touched, trace_append, List.filterMap_append]
  rfl

theorem key?_of_touches (touches : op.touches s = some key) : op.key? = some key := by
  cases op with
  | set => exact touches
  | get k =>
    rw [Op.touches] at touches
    split at touches
    · exact touches
    · cases touches
  | delete | clear | contains | length | clock => cases touches

theorem touched_subset : touched ops start ⊆ keys ops := by
  induction ops using List.reverseRecOn with
  | nil => exact List.nil_subset _
  | append_singleton ops op ih =>
    rw [touched_concat, keys_append]
    refine List.append_subset.mpr ⟨List.subset_append_of_subset_left _ ih, fun k member => ?_⟩
    have key := key?_of_touches (Option.mem_toList.mp member)
    exact List.mem_append_right _ (List.mem_filterMap.mpr ⟨op, List.mem_singleton_self op, key⟩)

theorem files_run : (run ops start).Files = start.Files := by
  funext digest key
  rw [Timed.Files, Timed.Files, digestOf_run]

/-! ### One operation -/

/-- The entries after an operation: no others than before and in the same order, or one of them, or a new one, comes
last. -/
inductive Shifted (s : Timed α) (op : Op α) : List (Entry α) → Prop
  | kept {entries : List (Entry α)} (among : entries.Sublist s.store.entries) (untouched : op.touches s = none) :
      Shifted s op entries
  | last {key : String} {entries : List (Entry α)} {e : Entry α} (touches : op.touches s = some key)
      (among : entries.Sublist (s.store.others key)) (digest : s.Files e.digest key) : Shifted s op (entries ++ [e])

theorem after_shifted (s : Timed α) (op : Op α) : Shifted s op (op.after s).store.entries := by
  cases op with
  | set key v =>
    have storing := set_storing s.store key v s.now
    rw [Op.after]
    generalize s.store.set key v s.now = c at storing ⊢
    cases storing with
    | added => exact .last rfl (List.Sublist.refl _) rfl
    | evicted others => exact .last rfl (others ▸ List.sublist_cons_self _ _) rfl
  | get key =>
    have lookup := get_lookup s.store key s.now
    have touches (answer : Option α) (same : (s.store.get key s.now).1 = answer) :
        (Op.get (α := α) key).touches s = if answer.isSome then some key else none := by
      rw [Op.touches, same]
    generalize answer : (s.store.get key s.now).1 = a at lookup
    rw [Op.after]
    generalize (s.store.get key s.now).2 = c at lookup ⊢
    cases lookup with
    | absent => exact .kept (List.Sublist.refl _) (touches _ answer)
    | lapsed => exact .kept (others_sublist _ _) (touches _ answer)
    | hit found => exact .last (touches _ answer) (List.Sublist.refl _) (mem_of_find? found).2.symm
  | delete key => exact .kept (others_sublist _ _) rfl
  | clear => exact .kept (List.nil_sublist _) rfl
  | contains | length | clock => exact .kept (List.Sublist.refl _) rfl

/-- An entry was there before and has not been ended, or it is that of a new value. -/
theorem mem_after (member : e ∈ (op.after s).store.entries) :
    e ∈ s.store.entries ∧ ¬ op.Ends (s.Files e.digest) ∨
      ∃ key v, op = .set key v ∧ e = ⟨s.store.digestOf key, v, s.now⟩ := by
  cases op with
  | set key v =>
    rcases mem_set member with ⟨old, elsewhere⟩ | new
    · exact .inl ⟨old, fun same => elsewhere same.symm⟩
    · exact .inr ⟨key, v, rfl, new⟩
  | get key => exact .inl ⟨mem_entries_get member, id⟩
  | delete key =>
    obtain ⟨old, elsewhere⟩ := mem_others.mp member
    exact .inl ⟨old, fun same => elsewhere same.symm⟩
  | clear => cases member
  | contains | length | clock => exact .inl ⟨member, id⟩

theorem mem_of_after (member : e ∈ (op.after s).store.entries) (kept : ¬ op.Ends (s.Files e.digest)) :
    e ∈ s.store.entries := by
  rcases mem_after member with ⟨old, -⟩ | ⟨key, v, rfl, rfl⟩
  · exact old
  · exact (kept rfl).elim

/-! ### Origin and order of the entries -/

/-- The entry holds the last value that was stored under its digest, and has not been ended since. -/
def Stems (start : Timed α) (ops : List (Op α)) (e : Entry α) : Prop :=
  ∃ before key after, ops = before ++ Op.set key e.value :: after ∧ start.Files e.digest key ∧
    (run before start).now = e.storedAt ∧ ∀ op ∈ after, ¬ op.Ends (start.Files e.digest)

theorem run_origin (empty : start.store.entries = []) (ops : List (Op α)) :
    ∀ e ∈ (run ops start).store.entries, Stems start ops e := by
  induction ops using List.reverseRecOn with
  | nil =>
    intro e member
    rw [run, List.foldl_nil, empty] at member
    cases member
  | append_singleton ops op ih =>
    intro e member
    rw [run_concat] at member
    rcases mem_after member with ⟨old, kept⟩ | ⟨key, v, rfl, rfl⟩
    · obtain ⟨before, key, after, rfl, files, time, later⟩ := ih e old
      rw [files_run] at kept
      refine ⟨before, key, after ++ [op], by rw [List.append_assoc, List.cons_append], files, time, ?_⟩
      exact List.forall_mem_append.mpr ⟨later, List.forall_mem_singleton.mpr kept⟩
    · exact ⟨ops, key, [], rfl, (digestOf_run ops start key).symm, rfl, nofun⟩

/-- The second entry was set or hit after the first was for the last time. -/
def Later (start : Timed α) (ops : List (Op α)) (e e' : Entry α) : Prop :=
  ∃ k ∈ since (start.Files e.digest) (touched ops start), start.Files e'.digest k

theorem later_concat {e e' : Entry α} (later : Later start ops e e')
    (other : ∀ k, op.touches (run ops start) = some k → ¬ start.Files e.digest k) :
    Later start (ops ++ [op]) e e' := by
  obtain ⟨k, member, files⟩ := later
  refine ⟨k, ?_, files⟩
  rw [touched_concat]
  cases touches : op.touches (run ops start) with
  | none =>
    rw [Option.toList_none, List.append_nil]
    exact member
  | some j =>
    rw [Option.toList_some, since_concat, if_neg (other j touches)]
    exact List.mem_append_left _ member

/-- Entries stand in the order in which they were last set or hit. -/
theorem run_order (empty : start.store.entries = []) (ops : List (Op α)) :
    (run ops start).store.entries.Pairwise (Later start ops) := by
  induction ops using List.reverseRecOn with
  | nil =>
    rw [run, List.foldl_nil, empty]
    exact .nil
  | append_singleton ops op ih =>
    have shifted := after_shifted (run ops start) op
    rw [run_concat]
    generalize (op.after (run ops start)).store.entries = entries at shifted ⊢
    cases shifted with
    | kept among untouched =>
      refine (ih.sublist among).imp fun later => later_concat later fun k touches => ?_
      cases untouched.symm.trans touches
    | @last key kept e touches among digest =>
      rw [files_run] at digest
      have elsewhere : ∀ e' ∈ kept, ¬ start.Files e'.digest key := by
        intro e' member same
        have other := (mem_others.mp (among.subset member)).2
        rw [digestOf_run] at other
        exact other same.symm
      rw [List.pairwise_append]
      refine ⟨?_, List.pairwise_singleton _ _, ?_⟩
      · refine List.Pairwise.imp_of_mem ?_ (ih.sublist (among.trans (others_sublist _ _)))
        intro e₁ e₂ first _ later
        refine later_concat later fun k touched => ?_
        obtain rfl := Option.some.inj (touches.symm.trans touched)
        exact elsewhere e₁ first
      · -- The key of the last entry has just been touched.
        intro e₁ first e₂ last
        obtain rfl := List.mem_singleton.mp last
        refine ⟨key, ?_, digest⟩
        rw [touched_concat, touches, Option.toList_some, since_concat, if_neg (elsewhere e₁ first)]
        exact List.mem_append_right _ List.mem_cons_self

/-! ### Putting out -/

theorem length_le_distinct {f : String → String} {digests touched : List String} (distinct : digests.Nodup)
    (known : ∀ d ∈ digests, ∃ k ∈ touched, f k = d) : digests.length ≤ touched.toFinset.card := by
  have among : digests.toFinset ⊆ touched.toFinset.image f := by
    intro d member
    obtain ⟨k, touched, digest⟩ := known d (List.mem_toFinset.mp member)
    exact Finset.mem_image.mpr ⟨k, List.mem_toFinset.mpr touched, digest⟩
  calc digests.length = digests.toFinset.card := (List.toFinset_card_of_nodup distinct).symm
    _ ≤ (touched.toFinset.image f).card := Finset.card_le_card among
    _ ≤ touched.toFinset.card := Finset.card_image_le

/-- The entry that gives way to a new value is older than everything that stays. -/
theorem later_of_evicted (empty : start.store.entries = []) (regular : Regular start.store) {oldest : Entry α}
    {rest : List (Entry α)} (others : (run ops start).store.others key = oldest :: rest) :
    ∀ e ∈ rest ++ [⟨start.store.digestOf key, v, (run ops start).now⟩],
      e.digest ≠ oldest.digest ∧ Later start (ops ++ [Op.set key v]) oldest e := by
  have distinct := (regular_run regular ops).distinct
  have sublist := others ▸ others_sublist (run ops start).store key
  have elsewhere : ¬ start.Files oldest.digest key := by
    intro same
    have other := (mem_others.mp (others ▸ List.mem_cons_self : oldest ∈ (run ops start).store.others key)).2
    rw [digestOf_run] at other
    exact other same.symm
  have apart := distinct.sublist (sublist.map Entry.digest)
  have ordered := (run_order empty ops).sublist sublist
  rw [List.map_cons, List.nodup_cons] at apart
  rw [List.pairwise_cons] at ordered
  intro e member
  rcases List.mem_append.mp member with stays | new
  · refine ⟨fun same => apart.1 (same ▸ List.mem_map_of_mem stays), later_concat (ordered.1 e stays) ?_⟩
    intro k touches
    obtain rfl := Option.some.inj touches
    exact elsewhere
  · obtain rfl := List.mem_singleton.mp new
    refine ⟨elsewhere, key, ?_, rfl⟩
    rw [touched_concat, Op.touches, Option.toList_some, since_concat, if_neg elsewhere]
    exact List.mem_append_right _ List.mem_cons_self

/-- Nothing is stored under the digest, and since it was last set or hit as many others were as there is room for. -/
structure Crowded (start : Timed α) (ops : List (Op α)) (digest : String) : Prop where
  gone : ∀ e ∈ (run ops start).store.entries, e.digest ≠ digest
  crowd : start.store.capacity ≤ (since (start.Files digest) (touched ops start)).toFinset.card

/-- A lookup of the key in question meets its entry expired. -/
def Op.LapsesOn (own : String → Prop) (s : Timed α) (op : Op α) : Prop :=
  ∃ key, op = .get key ∧ own key ∧ s.lapsed key = true

theorem set_retains (empty : start.store.entries = []) (regular : Regular start.store)
    (member : e ∈ (run ops start).store.entries) (other : ¬ start.Files e.digest key) :
    e ∈ (run (ops ++ [Op.set key v]) start).store.entries ∨ Crowded start (ops ++ [Op.set key v]) e.digest := by
  have storing := set_storing (run ops start).store key v (run ops start).now
  have elsewhere : e ∈ (run ops start).store.others key := by
    rw [mem_others, digestOf_run]
    exact ⟨member, Ne.symm other⟩
  have room := (run_sameTerms ops start).capacity
  have later := @later_of_evicted _ start ops key v empty regular
  have next : (run (ops ++ [Op.set key v]) start).store =
      (run ops start).store.set key v (run ops start).now := by rw [run_concat]; rfl
  have distinct := (regular_run regular (ops ++ [Op.set key v])).distinct
  rw [next] at distinct ⊢
  generalize result : (run ops start).store.set key v (run ops start).now = c at storing next distinct ⊢
  cases storing with
  | added => exact .inl (List.mem_append_left _ elsewhere)
  | @evicted oldest rest others full =>
    rw [others] at elsewhere
    rcases List.mem_cons.mp elsewhere with rfl | stays
    · -- The entry itself is put out, so all that stay are later.
      right
      have later := later others
      rw [digestOf_run] at next distinct
      constructor
      · intro e' stays
        rw [next] at stays
        exact (later e' stays).1
      · refine Nat.le_trans ?_ (length_le_distinct distinct (f := start.store.digestOf) fun d known => ?_)
        · rw [List.length_map, List.length_append, List.length_singleton, ← room]
          exact full
        · obtain ⟨e', stays, rfl⟩ := List.mem_map.mp known
          exact (later e' stays).2
    · exact .inl (List.mem_append_left _ stays)

theorem get_retains (regular : Regular s.store) (member : e ∈ s.store.entries)
    (current : ¬ (Op.get key).LapsesOn (s.Files e.digest) s) : e ∈ (s.store.get key s.now).2.entries := by
  have lookup := get_lookup s.store key s.now
  generalize (s.store.get key s.now).1 = answer at lookup
  generalize (s.store.get key s.now).2 = c at lookup ⊢
  have own : e.digest = s.store.digestOf key → s.store.find? key = some e :=
    fun same => (find?_eq_some_iff regular.distinct).mpr ⟨member, same⟩
  cases lookup with
  | absent => exact member
  | @lapsed e' found old =>
    refine mem_others.mpr ⟨member, fun same => current ⟨key, rfl, same.symm, ?_⟩⟩
    rw [Timed.lapsed, found]
    exact old
  | @hit e' found =>
    by_cases same : e.digest = s.store.digestOf key
    · rw [Option.some.inj ((own same).symm.trans found)]
      exact List.mem_append_right _ List.mem_cons_self
    · exact List.mem_append_left _ (mem_others.mpr ⟨member, same⟩)

/-- An operation that neither ends an entry nor meets it expired retains it, or there is a crowd of later ones. -/
theorem after_retains (empty : start.store.entries = []) (regular : Regular start.store)
    (member : e ∈ (run ops start).store.entries) (kept : ¬ op.Ends (start.Files e.digest))
    (current : ¬ op.LapsesOn (start.Files e.digest) (run ops start)) :
    e ∈ (run (ops ++ [op]) start).store.entries ∨ Crowded start (ops ++ [op]) e.digest := by
  cases op with
  | set key v => exact set_retains empty regular member kept
  | get key =>
    left
    rw [run_concat]
    refine get_retains (regular_run regular ops) member ?_
    rw [files_run]
    exact current
  | delete key =>
    left
    rw [run_concat]
    refine mem_others.mpr ⟨member, fun same => kept ?_⟩
    rw [digestOf_run] at same
    exact same.symm
  | clear => exact (kept trivial).elim
  | contains | length | clock =>
    left
    rw [run_concat]
    exact member

/-- What was put out is not set or hit by anything else. -/
theorem crowded_concat {digest : String} (crowded : Crowded start ops digest)
    (kept : ¬ op.Ends (start.Files digest)) : Crowded start (ops ++ [op]) digest := by
  obtain ⟨gone, crowd⟩ := crowded
  have other : ∀ k, op.touches (run ops start) = some k → ¬ start.Files digest k := by
    intro k touches own
    cases op with
    | set key v =>
      obtain rfl := Option.some.inj touches
      exact kept own
    | get key =>
      rw [Op.touches] at touches
      split at touches
      · next found =>
        obtain rfl := Option.some.inj touches
        obtain ⟨v, answer⟩ := Option.isSome_iff_exists.mp found
        obtain ⟨e, member, same, -⟩ := get_some answer
        rw [digestOf_run] at same
        exact gone e member (same.trans own)
      · cases touches
    | delete | clear | contains | length | clock => cases touches
  constructor
  · rintro e member rfl
    rw [run_concat] at member
    rw [← files_run] at kept
    exact gone e (mem_of_after member kept) rfl
  · rw [touched_concat]
    cases touches : op.touches (run ops start) with
    | none =>
      rw [Option.toList_none, List.append_nil]
      exact crowd
    | some k =>
      rw [Option.toList_some, since_concat, if_neg (other k touches), List.toFinset_append]
      exact Nat.le_trans crowd (Finset.card_le_card Finset.subset_union_left)

/-- An entry is retained as long as nothing ends it and no lookup meets it expired, unless there is a crowd. -/
theorem run_retains (empty : start.store.entries = []) (regular : Regular start.store)
    (member : e ∈ (run ops start).store.entries) {after : List (Op α)}
    (kept : ∀ op ∈ after, ¬ op.Ends (start.Files e.digest))
    (current : ∀ mid op rest, after = mid ++ op :: rest →
      ¬ op.LapsesOn (start.Files e.digest) (run (ops ++ mid) start)) :
    e ∈ (run (ops ++ after) start).store.entries ∨ Crowded start (ops ++ after) e.digest := by
  induction after using List.reverseRecOn with
  | nil =>
    rw [List.append_nil]
    exact .inl member
  | append_singleton after op ih =>
    obtain ⟨before, last⟩ := List.forall_mem_append.mp kept
    have last := last op List.mem_cons_self
    rw [← List.append_assoc]
    have earlier := ih before fun mid op' rest same => current mid op' (rest ++ [op]) (by
      rw [same, List.append_assoc, List.cons_append])
    rcases earlier with retained | crowded
    · exact after_retains empty regular retained last (current after op [] rfl)
    · exact .inr (crowded_concat crowded last)

end ScreenPlan.Lru
