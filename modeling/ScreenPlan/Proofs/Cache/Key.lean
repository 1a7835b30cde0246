import ScreenPlan.Cache.PlanStore
import ScreenPlan.Proofs.Json.Canonical
import ScreenPlan.Proofs.Plan.Payload

/-!
# Keys of stored plans

A request and a previous plan make a text, the text is hashed, and the digest is hashed once more to file a
plan. As long as no two of the hashed texts collide, what is filed together belongs to one request and to one
previous plan up to the order of keys.
-/

namespace ScreenPlan

namespace Digest

/-- No two of the texts have the same digest. -/
def Apart (texts : List String) : Prop :=
  ∀ a ∈ texts, ∀ b ∈ texts, Algorithm.xxhash64.ofText a = Algorithm.xxhash64.ofText b → a = b

theorem length_hex (bs : List UInt8) : (hex bs).toList.length = 2 * bs.length := by
  rw [hex, String.toList_ofList]
  induction bs with
  | nil => rfl
  | cons b bs ih =>
    rw [List.flatMap_cons, List.length_append, ih, List.length_cons, List.length_cons, List.length_cons,
      List.length_nil]
    omega

/-- Sixteen digits are all there are. -/
theorem entryKey_xxhash64 (text : String) : entryKey .xxhash64 text = Algorithm.xxhash64.ofText text := by
  have length : (Algorithm.xxhash64.ofText text).toList.length = 16 := by
    rw [Algorithm.ofText, Algorithm.digest, length_hex, XxHash64.digest, length_bytesOf]
  have whole : (Algorithm.xxhash64.ofText text).toList.take 16 = (Algorithm.xxhash64.ofText text).toList :=
    List.take_of_length_le (Nat.le_of_eq length)
  rw [entryKey, truncated, if_neg (by decide), if_neg (by decide)]
  change String.ofList ((Algorithm.xxhash64.ofText text).toList.take 16) = _
  rw [whole, String.ofList_toList]

/-- Where the last separator stands, the second field begins. -/
theorem joined_pair_inj {a b x y : String} (hx : '\x00' ∉ x.toList) (hy : '\x00' ∉ y.toList)
    (same : joined [a, x] = joined [b, y]) : a = b ∧ x = y := by
  have toList (a x : String) : (joined [a, x]).toList = a.toList ++ '\x00' :: x.toList := by
    rw [joined, String.intercalate_cons_cons, String.intercalate_singleton, String.toList_append,
      String.toList_append, List.append_assoc]
    rfl
  have same := congrArg String.toList same
  rw [toList, toList] at same
  rcases List.append_eq_append_iff.mp same with ⟨between, front, back⟩ | ⟨between, front, back⟩
  · cases between with
    | nil =>
      rw [List.append_nil] at front
      exact ⟨(String.toList_inj.mp front).symm, String.toList_inj.mp (List.cons.inj back).2⟩
    | cons c between =>
      have second := (List.cons.inj back).2
      exact (hx (second ▸ List.mem_append_right _ List.mem_cons_self)).elim
  · cases between with
    | nil =>
      rw [List.append_nil] at front
      exact ⟨String.toList_inj.mp front, (String.toList_inj.mp (List.cons.inj back).2).symm⟩
    | cons c between =>
      have second := (List.cons.inj back).2
      exact (hy (second ▸ List.mem_append_right _ List.mem_cons_self)).elim

end Digest

namespace PlanStore
open Value (Alike)
open Digest (Apart Algorithm)

/-- Payloads that are the same up to the order of keys, or both times no plan at all. -/
inductive SamePlan : Option Plan → Option Plan → Prop
  | absent : SamePlan none none
  | given {p q : Plan} (alike : Alike p.toValue q.toValue) : SamePlan (some p) (some q)

/-- The payload of the plan, if there is one, holds no floating-point number, and no name twice in an object. -/
def FloatFree (previous : Option Plan) : Prop := ∀ p, previous = some p → p.toValue.Exact

variable {message message' : String} {previous previous' : Option Plan} {text text' : String}

theorem canonical_of_previousText {p : Plan} (written : previousText (some p) = .ok text) :
    p.toValue.canonical = .ok text := Plan.written_of_writtenWith written

/-- No plan at all has the empty text, which no plan has. -/
theorem previousText_eq_iff (free : FloatFree previous) (free' : FloatFree previous')
    (written : previousText previous = .ok text) (written' : previousText previous' = .ok text') :
    text = text' ↔ SamePlan previous previous' := by
  cases previous with
  | none =>
    obtain rfl := Except.ok.inj written
    cases previous' with
    | none => exact ⟨fun _ => .absent, fun _ => Except.ok.inj written'⟩
    | some q =>
      have some := (Json.printed_canonical (free' q rfl) (canonical_of_previousText written')).1
      exact ⟨fun same => (some same.symm).elim, nofun⟩
  | some p =>
    have canonical := canonical_of_previousText written
    cases previous' with
    | none =>
      obtain rfl := Except.ok.inj written'
      exact ⟨fun same => ((Json.printed_canonical (free p rfl) canonical).1 same).elim, nofun⟩
    | some q =>
      have canonical' := canonical_of_previousText written'
      constructor
      · rintro rfl
        exact .given (Json.alike_of_canonical (free p rfl) (free' q rfl) canonical canonical')
      · intro same
        cases same with | given alike =>
        rw [Json.canonical_of_alike (free p rfl) (free' q rfl) alike, canonical'] at canonical
        exact (Except.ok.inj canonical).symm

theorem no_separator (free : FloatFree previous) (written : previousText previous = .ok text) :
    '\x00' ∉ text.toList := by
  cases previous with
  | none =>
    obtain rfl := Except.ok.inj written
    exact List.not_mem_nil
  | some p =>
    intro member
    have printed := (Json.printed_canonical (free p rfl) (canonical_of_previousText written)).2 _ member
    exact absurd printed (by decide)

/-- Requests may hold separators of their own, but only the last one in the text can be the one that was put there. -/
theorem keyText_eq_iff (free : FloatFree previous) (free' : FloatFree previous')
    (written : previousText previous = .ok text) (written' : previousText previous' = .ok text') :
    keyText message text = keyText message' text' ↔ message = message' ∧ SamePlan previous previous' := by
  have oneText := previousText_eq_iff free free' written written'
  constructor
  · intro same
    obtain ⟨messages, texts⟩ := Digest.joined_pair_inj (no_separator free written) (no_separator free' written') same
    exact ⟨messages, oneText.mp texts⟩
  · rintro ⟨rfl, same⟩
    rw [oneText.mpr same]

/-! ### Two questions -/

/-- The text that is hashed for a request and a previous plan. -/
def hashedText (message : String) (previous : Option Plan) : Except Unwritable String :=
  (previousText previous).map (keyText message)

theorem key_eq_hashedText (message : String) (previous : Option Plan) :
    PlanStore.key message previous = (hashedText message previous).map Algorithm.xxhash64.ofText := by
  rw [PlanStore.key, hashedText]
  cases previousText previous <;> simp only [Except.map]

/-- The plan, if there is one, can be serialised. -/
def Serialisable (previous : Option Plan) : Prop := ∀ p, previous = some p → p.Writable

theorem hashedText_ok (given : Serialisable previous) (message : String) : ∃ text,
    previousText previous = .ok text ∧ hashedText message previous = .ok (keyText message text) := by
  have written : ∃ text, previousText previous = .ok text := by
    cases previous with
    | none => exact ⟨"", rfl⟩
    | some p => exact Plan.canonical_ok (given p rfl)
  obtain ⟨text, written⟩ := written
  exact ⟨text, written, by rw [hashedText, written]; rfl⟩

/-- One text is hashed for two questions if and only if they ask for the same: the requests are equal, and the
previous plans have the same payload up to the order of keys, or there is none both times. -/
theorem hashedText_eq_iff (given : Serialisable previous) (given' : Serialisable previous')
    (free : FloatFree previous) (free' : FloatFree previous') : ∃ s t,
      hashedText message previous = .ok s ∧ PlanStore.key message previous = .ok (Algorithm.xxhash64.ofText s) ∧
      hashedText message' previous' = .ok t ∧ PlanStore.key message' previous' = .ok (Algorithm.xxhash64.ofText t) ∧
      (s = t ↔ message = message' ∧ SamePlan previous previous') := by
  obtain ⟨text, written, made⟩ := hashedText_ok given message
  obtain ⟨text', written', made'⟩ := hashedText_ok given' message'
  refine ⟨_, _, made, ?_, made', ?_, keyText_eq_iff free free' written written'⟩
  · rw [key_eq_hashedText, made]
    rfl
  · rw [key_eq_hashedText, made']
    rfl

/-- A plan without components. -/
def bare : Plan := ⟨"grid", []⟩

/-- A request that holds a separator and, behind it, the canonical text of a plan. -/
def spelledOut : String := "a card\x00\x7b\"components\":[],\"layout\":\"grid\"\x7d"

theorem bare_serialisable : Serialisable (some bare) := by
  intro p same
  obtain rfl := Option.some.inj same
  exact ⟨_, rfl⟩

theorem bare_floatFree : FloatFree (some bare) := by
  intro p same
  obtain rfl := Option.some.inj same
  refine .object (by decide) ?_
  exact List.forall_mem_cons.mpr ⟨.str "grid", List.forall_mem_singleton.mpr (.list nofun)⟩

theorem hashedText_eq_iff_spelledOut :
    Serialisable (some bare) ∧ Serialisable none ∧ FloatFree (some bare) ∧ FloatFree none ∧ ∃ s t,
      hashedText "a card" (some bare) = .ok s ∧
      PlanStore.key "a card" (some bare) = .ok (Algorithm.xxhash64.ofText s) ∧
      hashedText spelledOut none = .ok t ∧ PlanStore.key spelledOut none = .ok (Algorithm.xxhash64.ofText t) ∧
      (s = t ↔ "a card" = spelledOut ∧ SamePlan (some bare) none) :=
  ⟨bare_serialisable, nofun, bare_floatFree, nofun, hashedText_eq_iff bare_serialisable nofun bare_floatFree nofun⟩

/-! ### Entries -/

/-- What is hashed to find the entry of a request and a previous plan. -/
def hashed (message : String) (previous : Option Plan) : List String :=
  match previousText previous with
  | .error _ => []
  | .ok text => [keyText message text, Algorithm.xxhash64.ofText (keyText message text)]

theorem key_ok {key : String} (keyed : PlanStore.key message previous = .ok key) : ∃ text,
    previousText previous = .ok text ∧ key = Algorithm.xxhash64.ofText (keyText message text) ∧
      hashed message previous = [keyText message text, key] := by
  cases written : previousText previous with
  | error e =>
    rw [PlanStore.key, written] at keyed
    cases keyed
  | ok text =>
    rw [PlanStore.key, written] at keyed
    obtain rfl := Except.ok.inj keyed
    exact ⟨text, rfl, rfl, by rw [hashed, written]⟩

theorem key_of_same {key key' : String} (free : FloatFree previous) (free' : FloatFree previous')
    (same : SamePlan previous previous') (keyed : PlanStore.key message previous = .ok key)
    (keyed' : PlanStore.key message previous' = .ok key') : key = key' := by
  obtain ⟨text, written, hash, -⟩ := key_ok keyed
  obtain ⟨text', written', hash', -⟩ := key_ok keyed'
  rw [hash, hash', (previousText_eq_iff free free' written written').mpr same]

/-- The entry of a request and a previous plan has this digest. -/
def FiledUnder (message : String) (previous : Option Plan) (digest : String) : Prop :=
  ∃ key, PlanStore.key message previous = .ok key ∧ digest = Digest.entryKey .xxhash64 key

theorem filedUnder_unique {digest digest' : String} (filed : FiledUnder message previous digest)
    (filed' : FiledUnder message previous digest') : digest = digest' := by
  obtain ⟨key, keyed, rfl⟩ := filed
  obtain ⟨key', keyed', rfl⟩ := filed'
  rw [Except.ok.inj (keyed.symm.trans keyed')]

/-- Nothing but the request and the previous plan is filed under their digest, unless digests collide. -/
theorem filedUnder_iff {texts : List String} (apart : Apart texts) {digest : String}
    (filed : FiledUnder message previous digest) (free : FloatFree previous)
    (among : ∀ a ∈ hashed message previous, a ∈ texts) {key' : String}
    (keyed' : PlanStore.key message' previous' = .ok key') (free' : FloatFree previous')
    (among' : ∀ a ∈ hashed message' previous', a ∈ texts) :
    FiledUnder message' previous' digest ↔ message' = message ∧ SamePlan previous' previous := by
  obtain ⟨key, keyed, digested⟩ := filed
  obtain ⟨text, written, hash, texts'⟩ := key_ok keyed
  obtain ⟨text', written', hash', texts''⟩ := key_ok keyed'
  rw [texts', List.forall_mem_cons, List.forall_mem_singleton] at among
  rw [texts'', List.forall_mem_cons, List.forall_mem_singleton] at among'
  rw [Digest.entryKey_xxhash64] at digested
  constructor
  · rintro ⟨_, keyed'', digested'⟩
    obtain rfl := Except.ok.inj (keyed'.symm.trans keyed'')
    rw [Digest.entryKey_xxhash64, digested] at digested'
    have keys : key' = key := (apart key among.2 key' among'.2 digested').symm
    rw [hash, hash'] at keys
    exact (keyText_eq_iff free' free written' written).mp (apart _ among'.1 _ among.1 keys)
  · rintro ⟨rfl, same⟩
    obtain rfl := key_of_same free' free same keyed' keyed
    exact ⟨key', keyed', by rw [digested, Digest.entryKey_xxhash64]⟩

end PlanStore
end ScreenPlan
