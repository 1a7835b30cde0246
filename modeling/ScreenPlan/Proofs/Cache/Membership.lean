import ScreenPlan.Proofs.Cache.Answers
import ScreenPlan.Proofs.Cache.Balance
import ScreenPlan.Proofs.Decimal.Finite

/-!
# Membership

Only lookups consult the clock, so a key may be contained for longer than it is found: until its entry is replaced,
removed or put out, or a lookup meets it expired. On all other keys membership and lookups agree.
-/

namespace ScreenPlan.Lru
variable {α : Type} {start s : Timed α} {ops before after : List (Op α)} {op : Op α} {e : Entry α} {key own : String}
  {v : α}

/-- The key is contained if and only if a lookup, at the time on the clock, would find something. -/
def Timed.Agrees (s : Timed α) (key : String) : Prop :=
  s.store.contains key = true ↔ (Op.get key).finds s = true

/-! ### One store -/

theorem expired_iff {c : Lru α} {now : Float} :
    c.expired now e = true ↔ ∃ ttl, c.ttl = some ttl ∧ ttl.atMost (now - e.storedAt) = true := by
  rw [expired]
  cases c.ttl <;> simp

theorem lapsed_iff : s.lapsed key = true ↔ ∃ e, s.store.find? key = some e ∧ s.store.expired s.now e = true :=
  Option.any_eq_true _ _

theorem contains_of_lapsed (lapsed : s.lapsed key = true) : s.store.contains key = true := by
  obtain ⟨e, found, -⟩ := lapsed_iff.mp lapsed
  rw [contains, found]
  rfl

theorem finds_iff : (Op.get key).finds s = true ↔ s.store.contains key = true ∧ s.lapsed key = false := by
  have lookup := get_lookup s.store key s.now
  rw [Op.finds, contains, Timed.lapsed]
  generalize (s.store.get key s.now).1 = answer, (s.store.get key s.now).2 = c at lookup
  cases lookup with
  | absent unknown => simp [unknown]
  | lapsed found old => simp [found, old]
  | hit found current => simp [found, current]

theorem agrees_iff : s.Agrees key ↔ s.lapsed key = false := by
  rw [Timed.Agrees, finds_iff, iff_self_and]
  cases lapsed : s.lapsed key with
  | false => simp
  | true => simp [contains_of_lapsed lapsed]

/-- A lookup keeps the entry of its key if that is current. -/
theorem find?_get (c : Lru α) (key : String) (now : Float) :
    (c.get key now).2.find? key = (c.find? key).filter fun e => !c.expired now e := by
  have lookup := get_lookup c key now
  generalize (c.get key now).1 = answer, (c.get key now).2 = c' at lookup
  cases lookup with
  | absent unknown =>
    rw [unknown]
    exact unknown
  | lapsed found old =>
    rw [found, Option.filter_some, old]
    exact @find?_among_others _ c key _ fun _ member => member
  | @hit e found current =>
    rw [found, Option.filter_some, current]
    show (c.others key ++ [e]).find? (fun e => decide (e.digest = c.digestOf key)) = some e
    rw [List.find?_append, find?_among_others fun _ member => member, Option.none_or, List.find?_singleton]
    exact if_pos (decide_eq_true (mem_of_find? found).2)

theorem contains_get : ((Op.get key).after s).store.contains key = (Op.get key).finds s := by
  rw [Bool.eq_iff_iff, finds_iff, Op.after, contains, find?_get, contains, Timed.lapsed]
  cases s.store.find? key with
  | none => simp
  | some e => cases old : s.store.expired s.now e <;> simp [Option.filter_some, old]

theorem lapsed_get (s : Timed α) (key : String) : ((Op.get key).after s).lapsed key = false := by
  rw [← Bool.not_eq_true, lapsed_iff]
  rintro ⟨e, found, old⟩
  have found : (s.store.get key s.now).2.find? key = some e := found
  have old : (s.store.get key s.now).2.expired s.now e = true := old
  rw [find?_get] at found
  have current := (Option.filter_eq_some_iff.mp found).2
  rw [expired_get] at old
  rw [old] at current
  cases current

/-! ### Runs -/

/-- If nothing ends the entries of a digest any more, those that are there in the end have been there all along. -/
theorem mem_of_run_append (member : e ∈ (run (before ++ after) start).store.entries)
    (kept : ∀ op ∈ after, ¬ op.Ends (start.Files e.digest)) : e ∈ (run before start).store.entries := by
  induction after using List.reverseRecOn with
  | nil =>
    rw [List.append_nil] at member
    exact member
  | append_singleton after op ih =>
    obtain ⟨earlier, last⟩ := List.forall_mem_append.mp kept
    rw [← List.append_assoc, run_concat] at member
    refine ih (mem_of_after member ?_) earlier
    rw [files_run]
    exact last op List.mem_cons_self

/-- An entry that is there in the end has not been met expired. -/
theorem not_lapsesOn_of_mem (member : e ∈ (run (before ++ op :: after) start).store.entries)
    (kept : ∀ op ∈ after, ¬ op.Ends (start.Files e.digest)) :
    ¬ op.LapsesOn (start.Files e.digest) (run before start) := by
  rintro ⟨own, rfl, files, lapsed⟩
  rw [← List.singleton_append, ← List.append_assoc] at member
  have left : (run (before ++ [Op.get own]) start).store.contains own = true :=
    contains_run.mpr ⟨e, mem_of_run_append member kept, files⟩
  rw [run_concat, contains_get, finds_iff, lapsed] at left
  cases left.2

/-- The time of the last value under the digest of the key is up, and its entry is still there: it was neither replaced
nor removed, did not give way to others, and was not met expired by a lookup. -/
structure Overdue (start : Timed α) (key : String) (ops before : List (Op α)) (own : String) (v : α)
    (after : List (Op α)) : Prop where
  split : ops = before ++ Op.set own v :: after
  files : start.Files (start.store.digestOf key) own
  kept : ∀ op ∈ after, ¬ op.Ends (start.Files (start.store.digestOf key))
  unmet : ∀ mid op rest, after = mid ++ op :: rest →
    ¬ op.LapsesOn (start.Files (start.store.digestOf key)) (run (before ++ Op.set own v :: mid) start)
  stored : (run ops start).store.contains key = true
  old : ∃ ttl, start.store.ttl = some ttl ∧ ttl.atMost ((run ops start).now - (run before start).now) = true

theorem overdue_of_lapsed (empty : start.store.entries = []) (lapsed : (run ops start).lapsed key = true) :
    ∃ before own v after, Overdue start key ops before own v after := by
  obtain ⟨e, found, old⟩ := lapsed_iff.mp lapsed
  obtain ⟨member, digest⟩ := mem_of_find? found
  rw [digestOf_run] at digest
  obtain ⟨before, own, after, split, files, time, kept⟩ := run_origin empty ops e member
  refine ⟨before, own, e.value, after, ?_⟩
  rw [digest] at files kept
  constructor
  case split => exact split
  case files => exact files
  case kept => exact kept
  case unmet =>
    rintro mid op rest rfl
    rw [← digest] at kept ⊢
    rw [split, ← List.cons_append, ← List.append_assoc] at member
    refine not_lapsesOn_of_mem member fun op' later => kept op' ?_
    exact List.mem_append_right mid (List.mem_cons_of_mem op later)
  case stored => exact contains_of_lapsed lapsed
  case old =>
    rw [← (run_sameTerms ops start).ttl, time]
    exact expired_iff.mp old

theorem lapsed_of_overdue (regular : Regular start.store) (overdue : Overdue start key ops before own v after) :
    (run ops start).lapsed key = true := by
  obtain ⟨split, files, kept, -, stored, old⟩ := overdue
  obtain ⟨e, member, same⟩ := contains_run.mp stored
  have found : (run ops start).store.find? key = some e := by
    rw [find?_eq_some_iff (regular_run regular ops).distinct, digestOf_run]
    exact ⟨member, same.symm⟩
  -- The entry has been there since the value was stored, so it is that of the value.
  have time : e.storedAt = (run before start).now := by
    rw [split, ← List.singleton_append, ← List.append_assoc] at member
    rw [same] at files kept
    have first := mem_of_run_append member kept
    rw [run_concat] at first
    rcases mem_set first with ⟨-, other⟩ | rfl
    · rw [digestOf_run] at other
      exact (other files.symm).elim
    · rfl
  refine lapsed_iff.mpr ⟨e, found, expired_iff.mpr ?_⟩
  rw [(run_sameTerms ops start).ttl, time]
  exact old

theorem agrees_iff_not_overdue (empty : start.store.entries = []) (regular : Regular start.store) :
    (run ops start).Agrees key ↔ ¬ ∃ before own v after, Overdue start key ops before own v after := by
  rw [agrees_iff, ← Bool.not_eq_true, not_iff_not]
  constructor
  · exact overdue_of_lapsed empty
  · rintro ⟨before, own, v, after, overdue⟩
    exact lapsed_of_overdue regular overdue

/-- Every entry is that of some key, so a single expired one is enough to set membership and lookups apart. -/
theorem all_agree_iff (empty : start.store.entries = []) (regular : Regular start.store) :
    (∀ key, (run ops start).Agrees key) ↔
      ∀ e ∈ (run ops start).store.entries, (run ops start).store.expired (run ops start).now e = false := by
  simp only [agrees_iff, ← Bool.not_eq_true, lapsed_iff]
  constructor
  · intro current e member old
    obtain ⟨-, key, -, -, files, -⟩ := run_origin empty ops e member
    refine current key ⟨e, ?_, old⟩
    rw [find?_eq_some_iff (regular_run regular ops).distinct, digestOf_run]
    exact ⟨member, files.symm⟩
  · rintro current key ⟨e, found, old⟩
    exact current e (mem_of_find? found).1 old

/-! ### All runs -/

/-- After an endless wait a value has expired if it can. -/
theorem lapsed_of_wait {q : Quantity} (limited : start.store.ttl = some q) (number : ∀ y, q = .real y → y.isNaN = false)
    (key : String) (v : α) : (run [.clock 0.0, .set key v, .clock (1.0 / 0.0)] start).lapsed key = true := by
  have age : (1.0 / 0.0 : Float) - 0.0 = 1.0 / 0.0 := by rfl
  refine lapsed_iff.mpr ⟨⟨start.store.digestOf key, v, 0.0⟩, find?_set, ?_⟩
  show (start.store.set key v 0.0).expired (1.0 / 0.0) _ = true
  rw [expired_set, expired_iff]
  refine ⟨q, limited, ?_⟩
  rw [age]
  exact Doubles.atMost_infinity number

theorem lapsed_of_limitless (limitless : ∀ q, s.store.ttl = some q → ∃ y, q = .real y ∧ y.isNaN = true) (key : String) :
    s.lapsed key = false := by
  rw [← Bool.not_eq_true, lapsed_iff]
  rintro ⟨e, -, old⟩
  obtain ⟨q, limited, reached⟩ := expired_iff.mp old
  obtain ⟨y, rfl, none⟩ := limitless q limited
  exact Doubles.not_le_of_isNaN none (of_decide_eq_true reached)

theorem always_agree_iff [Nonempty α] : (∀ (ops : List (Op α)) key, (run ops start).Agrees key) ↔
    ∀ q, start.store.ttl = some q → ∃ y, q = .real y ∧ y.isNaN = true := by
  simp only [agrees_iff]
  constructor
  · intro current q limited
    obtain ⟨v⟩ := ‹Nonempty α›
    by_contra none
    have number : ∀ y, q = .real y → y.isNaN = false := fun y same =>
      Bool.eq_false_iff.mpr fun nan => none ⟨y, same, nan⟩
    cases (lapsed_of_wait limited number "" v).symm.trans (current _ _)
  · intro limitless ops
    rw [← (run_sameTerms ops start).ttl] at limitless
    exact lapsed_of_limitless limitless

/-- How membership and lookups compare at the end of a run. -/
structure Membership (start : Timed α) (ops : List (Op α)) : Prop where
  found : ∀ key, (Op.get key).finds (run ops start) = true → (run ops start).store.contains key = true
  agrees : ∀ key, (run ops start).Agrees key ↔ ¬ ∃ before own v after, Overdue start key ops before own v after
  everywhere : (∀ key, (run ops start).Agrees key) ↔
    ∀ e ∈ (run ops start).store.entries, (run ops start).store.expired (run ops start).now e = false
  caughtUp : ∀ key, (run (ops ++ [Op.get key]) start).Agrees key

theorem membership_of_empty (empty : start.store.entries = []) (regular : Regular start.store) (ops : List (Op α)) :
    Membership start ops := by
  constructor
  case found => exact fun key found => (finds_iff.mp found).1
  case agrees => exact fun key => agrees_iff_not_overdue empty regular
  case everywhere => exact all_agree_iff empty regular
  case caughtUp =>
    intro key
    rw [agrees_iff, run_concat]
    exact lapsed_get _ _

/-- Let a new store have room for one entry at least. After any sequence of operations, whatever the clock does in
between, what a lookup would find is contained, and membership agrees with lookups on every key but those whose entries
have expired and are still there; the next lookup of such a key puts that right. Over all sequences they agree only in
a store without a time to live, or with one that is not a number. -/
theorem membership_lags_expiry [Nonempty α] {capacity : Int} (positive : 1 ≤ capacity) (ttl : Option Quantity)
    (algorithm : Digest.Algorithm) (start : Float) :
    ∃ fresh : Lru α, make capacity ttl algorithm = .ok fresh ∧ (∀ ops, Membership ⟨fresh, start⟩ ops) ∧
      ((∀ (ops : List (Op α)) key, (run ops ⟨fresh, start⟩).Agrees key) ↔
        ∀ q, ttl = some q → ∃ y, q = .real y ∧ y.isNaN = true) := by
  obtain ⟨fresh, made, -, rfl, -, empty, size, -⟩ := @make_ok α capacity positive ttl algorithm
  have regular : Regular fresh := regular_of_empty empty size
  exact ⟨fresh, made, @membership_of_empty α ⟨fresh, start⟩ empty regular, always_agree_iff⟩

def renewals : List (Op Nat) := [.set "a" 1, .set "b" 2, .clock 1030.0, .set "b" 3, .clock 1060.0]

/-- Of two values that live for a minute one is renewed in time. The other one is contained and not found, until it is
looked up. -/
theorem membership_lags_expiry_renewals :
    (1 : Int) ≤ 2 ∧ ∃ fresh : Lru Nat, make 2 (some (.whole 60)) .xxhash64 = .ok fresh ∧
      Membership ⟨fresh, 1000.0⟩ renewals ∧
      (¬ ∃ before own v after, Overdue ⟨fresh, 1000.0⟩ "b" renewals before own v after) ∧
      (∃ before own v after, Overdue ⟨fresh, 1000.0⟩ "a" renewals before own v after) ∧
      (run (renewals ++ [.get "a"]) ⟨fresh, 1000.0⟩).Agrees "a" ∧
      ¬ ∀ (ops : List (Op Nat)) key, (run ops ⟨fresh, 1000.0⟩).Agrees key := by
  obtain ⟨fresh, made, membership, always⟩ :=
    @membership_lags_expiry Nat _ 2 (by decide) (some (.whole 60)) .xxhash64 1000.0
  obtain rfl : visitStore = fresh := Except.ok.inj made
  have renewed := membership renewals
  refine ⟨by decide, visitStore, made, renewed, ?_, ?_, renewed.caughtUp "a", ?_⟩
  · refine (renewed.agrees "b").mp ?_
    rw [Timed.Agrees]
    decide +kernel
  · refine not_not.mp ((renewed.agrees "a").not.mp ?_)
    rw [Timed.Agrees]
    decide +kernel
  · intro agree
    obtain ⟨y, real, -⟩ := always.mp agree _ rfl
    cases real

/-- A value that lives for a minute is contained when the minute has passed, and a lookup does not find it. -/
theorem expired_key_contained :
    ∃ fresh : Lru Nat, make 2 (some (.whole 60)) .xxhash64 = .ok fresh ∧
      (run [.set "a" 1, .clock 1060.0] ⟨fresh, 1000.0⟩).store.contains "a" = true ∧
      (Op.get "a").finds (run [.set "a" 1, .clock 1060.0] ⟨fresh, 1000.0⟩) = false ∧
      ¬ (run [.set "a" 1, .clock 1060.0] ⟨fresh, 1000.0⟩).Agrees "a" := by
  refine ⟨visitStore, rfl, by decide +kernel, by decide +kernel, ?_⟩
  rw [Timed.Agrees]
  decide +kernel

end ScreenPlan.Lru
