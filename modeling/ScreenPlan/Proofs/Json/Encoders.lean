import ScreenPlan.Proofs.Json.Data

/-!
# What the encoders take

Nothing keeps a value from the portable and the plain encoder but something foreign in it, an integer that is too
long, or nesting. Whatever fits has a text of every kind, and an encoder takes no value with an integer in it that is
too long.
-/

namespace ScreenPlan.Json

variable {e : Encoder} {l : Layout} {room : Nat} {v : Value} {text : String}

theorem digitCount_le_length (n : Int) : digitCount n ≤ (printInt n).length := by
  unfold printInt digitCount
  split
  · exact Nat.le_succ _
  · exact Nat.le_refl _

/-- Values without anything foreign and without integers that are too long, and no more containers inside one another
than there is room for. -/
inductive Fits : Nat → Value → Prop
  | null {room : Nat} : Fits room .null
  | bool {room : Nat} (b : Bool) : Fits room (.bool b)
  | int {room : Nat} {n : Int} (short : digitCount n ≤ maxDigits) : Fits room (.int n)
  | float {room : Nat} (x : Float) : Fits room (.float x)
  | str {room : Nat} (text : String) : Fits room (.str text)
  | list {room : Nat} {xs : List Value} (each : ∀ x ∈ xs, Fits room x) : Fits (room + 1) (.list xs)
  | object {room : Nat} {fs : Table Value} (each : ∀ e ∈ fs, Fits room e.2) : Fits (room + 1) (.object fs)

theorem fits_mono {room' : Nat} (enough : room ≤ room') (fits : Fits room v) : Fits room' v := by
  induction fits generalizing room' with
  | null => exact .null
  | bool b => exact .bool b
  | int short => exact .int short
  | float x => exact .float x
  | str text => exact .str text
  | list each ih =>
    obtain ⟨room', rfl⟩ : ∃ r, room' = r + 1 := ⟨room' - 1, by omega⟩
    exact .list fun x hx => ih x hx (Nat.le_of_succ_le_succ enough)
  | object each ih =>
    obtain ⟨room', rfl⟩ : ∃ r, room' = r + 1 := ⟨room' - 1, by omega⟩
    exact .object fun e he => ih e he (Nat.le_of_succ_le_succ enough)

/-- What is inside needs no more room than the whole. -/
theorem Fits.item {xs : List Value} (fits : Fits room (.list xs)) {x : Value} (member : x ∈ xs) : Fits room x := by
  cases fits with | list each => exact fits_mono (Nat.le_succ _) (each x member)

theorem Fits.member {fs : Table Value} (fits : Fits room (.object fs)) {e : String × Value} (member : e ∈ fs) :
    Fits room e.2 := by
  cases fits with | object each => exact fits_mono (Nat.le_succ _) (each e member)

theorem fits_sorted (fits : Fits room v) : Fits room v.sorted := by
  induction fits with
  | null => exact .null
  | bool b => exact .bool b
  | int short => exact .int short
  | float x => exact .float x
  | str text => exact .str text
  | list each ih =>
    rw [Value.sorted, Value.sortedItems_eq_map]
    exact .list (List.forall_mem_map.mpr ih)
  | object each ih =>
    rw [Value.sorted, Value.sortedMembers_eq_map]
    refine .object fun e he => ?_
    obtain ⟨d, hd, rfl⟩ := List.mem_map.mp (List.mem_mergeSort.mp he)
    exact ih d hd

theorem fits_of_isJson (json : v.IsJson) (brief : v.Brief) (shallow : v.height < room) : Fits room v := by
  induction json generalizing room with
  | null => exact .null
  | bool b => exact .bool b
  | int n =>
    cases brief with | leaf _ _ short => exact .int (short n rfl)
  | float => exact .float _
  | str text => exact .str text
  | list each ih =>
    obtain ⟨room, rfl⟩ : ∃ r, room = r + 1 := ⟨room - 1, by omega⟩
    exact .list fun x hx => ih x hx (Value.throughout_list.mp brief x hx)
      (Value.height_list_le.mp (Nat.le_of_lt_succ shallow) x hx)
  | object each ih =>
    obtain ⟨room, rfl⟩ : ∃ r, room = r + 1 := ⟨room - 1, by omega⟩
    exact .object fun e he => ih e he (Value.throughout_object.mp brief e he)
      (Value.height_object_le.mp (Nat.le_of_lt_succ shallow) e he)

theorem Readable.fits (readable : Readable room v) : Fits room v := by
  induction readable with
  | null => exact .null
  | bool b => exact .bool b
  | int short => exact .int (Nat.le_trans (digitCount_le_length _) short)
  | str text => exact .str text
  | list _ ih => exact .list ih
  | object _ _ ih => exact .object fun e he => ih e.1 e.2 he

/-! ### Obstacles -/

theorem obstacleItems?_eq_none {xs : List Value} :
    e.obstacleItems? room xs = none ↔ ∀ x ∈ xs, e.obstacle? room x = none := by
  induction xs with
  | nil => simp [Encoder.obstacleItems?]
  | cons x xs ih => rw [Encoder.obstacleItems?, Option.or_eq_none_iff, ih, List.forall_mem_cons]

theorem obstacleMembers?_eq_none {fs : Table Value} :
    e.obstacleMembers? room fs = none ↔ ∀ m ∈ fs, e.obstacle? room m.2 = none := by
  induction fs with
  | nil => simp [Encoder.obstacleMembers?]
  | cons m fs ih => rw [Encoder.obstacleMembers?, Option.or_eq_none_iff, ih, List.forall_mem_cons]

theorem obstacle?_of_fits (long : e.integers = .upTo maxDigits) (fits : Fits room v) : e.obstacle? room v = none := by
  induction fits with
  | int short =>
    rw [Encoder.obstacle?, long]
    exact if_pos (decide_eq_true short)
  | list each ih =>
    rw [Encoder.obstacle?]
    exact obstacleItems?_eq_none.mpr ih
  | object each ih =>
    rw [Encoder.obstacle?]
    exact obstacleMembers?_eq_none.mpr ih
  | _ => rfl

theorem encode_of_fits (long : e.integers = .upTo maxDigits) (fits : Fits e.room v) (l : Layout) :
    e.encode l v = .ok (String.ofList (print e.spelling l 0 v)) := by
  rw [Encoder.encode, obstacle?_of_fits long fits]

theorem obstacle?_of_encode (encoded : e.encode l v = .ok text) : e.obstacle? e.room v = none := by
  unfold Encoder.encode at encoded
  split at encoded
  · cases encoded
  · next free => exact free

/-- An encoder that takes no integer that is too long. -/
def Terse (e : Encoder) : Prop := ∀ n, e.integers.contain n = true → digitCount n ≤ maxDigits

theorem terse_fast : Terse fast := by
  intro n among
  have bounds : -Int.pow 2 63 ≤ n ∧ n ≤ Int.pow 2 64 - 1 := by
    simpa only [fast, Integers.contain, Bool.and_eq_true, decide_eq_true_eq] using among
  have word : Int.pow 2 63 = 9223372036854775808 ∧ Int.pow 2 64 = 18446744073709551616 := by decide
  have few : digitCount n ≤ 20 := (Nat.length_toDigits_le_iff (by decide) (by decide)).mpr (by omega)
  exact Nat.le_trans few (by decide)

theorem terse_portable : Terse portable := fun _ short => of_decide_eq_true short

theorem terse_plain : Terse plain := fun _ short => of_decide_eq_true short

theorem brief_of_obstacle? (terse : Terse e) (free : e.obstacle? room v = none) : v.Brief := by
  induction v using Value.parts_induction generalizing room with
  | leaf v noItems noFields =>
    cases v with
    | int n =>
      refine .leaf rfl rfl fun m same => ?_
      obtain rfl := Value.int.inj same
      rw [Encoder.obstacle?] at free
      split at free
      · next among => exact terse _ among
      · cases free
    | list => cases noItems
    | object => cases noFields
    | _ => exact .leaf rfl rfl nofun
  | list xs ih =>
    cases room with
    | zero => cases free
    | succ room =>
      rw [Encoder.obstacle?, obstacleItems?_eq_none] at free
      exact .list fun x hx => ih x hx (free x hx)
  | object fs ih =>
    cases room with
    | zero => cases free
    | succ room =>
      rw [Encoder.obstacle?, obstacleMembers?_eq_none] at free
      exact .object fun e he => ih e he (free e he)

theorem brief_of_encode (terse : Terse e) (encoded : e.encode l v = .ok text) : v.Brief :=
  brief_of_obstacle? terse (obstacle?_of_encode encoded)

theorem brief_of_compact (written : v.compact = .ok text) : v.Brief := by
  unfold Value.compact at written
  split at written
  · next encoded => exact brief_of_encode terse_fast encoded
  · split at written
    · next encoded => exact brief_of_encode terse_portable encoded
    · cases written
    · exact brief_of_encode terse_plain written

/-! ### Texts -/

theorem text_of_encode (encoded : e.encode l v = .ok text) : text = String.ofList (print e.spelling l 0 v) := by
  unfold Encoder.encode at encoded
  split at encoded
  · cases encoded
  · exact (Except.ok.inj encoded).symm

/-- Whichever encoder takes the value. -/
theorem text_of_compact (written : v.compact = .ok text) : ∃ s, text = String.ofList (print s .compact 0 v) := by
  unfold Value.compact at written
  split at written
  · next encoded => exact ⟨_, text_of_encode (encoded.trans written)⟩
  · split at written
    · next encoded => exact ⟨_, text_of_encode (encoded.trans written)⟩
    · cases written
    · exact ⟨_, text_of_encode written⟩

theorem fast_room_le : fast.room ≤ stackRoom := by decide

theorem compact_of_fits (fits : Fits stackRoom v) : ∃ text, v.compact = .ok text := by
  unfold Value.compact
  split
  · next text _ => exact ⟨text, rfl⟩
  · exact ⟨_, by rw [encode_of_fits (e := portable) rfl fits]⟩

theorem written_of_fits (fits : Fits stackRoom v) (l : Layout) :
    ∃ s, v.written l = .ok (String.ofList (print s l 0 v)) := by
  unfold Value.written
  split
  · next compact =>
    obtain ⟨text, written⟩ := compact_of_fits fits
    obtain ⟨s, form⟩ := text_of_compact written
    exact ⟨s, by rw [written, form, compact]⟩
  · exact ⟨_, encode_of_fits (e := plain) rfl fits l⟩

theorem canonical_of_fits (fits : Fits stackRoom v) : ∃ text, v.canonical = .ok text := by
  unfold Value.canonical
  split
  · next text _ => exact ⟨text, rfl⟩
  · exact ⟨_, encode_of_fits (e := plain) rfl (fits_sorted fits) .compact⟩

/-- Some encoder takes a legible value, and which one does makes no difference to its text. -/
theorem compact_legible (legible : Legible maxNesting v) :
    v.compact = .ok (String.ofList (print plain.spelling .compact 0 v)) := by
  obtain ⟨text, written⟩ := compact_of_fits legible.readable.fits
  obtain ⟨s, rfl⟩ := text_of_compact written
  rw [written, print_spelling legible s plain.spelling]

end ScreenPlan.Json
