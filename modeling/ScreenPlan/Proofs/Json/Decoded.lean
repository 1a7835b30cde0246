import ScreenPlan.Proofs.Decimal.Finite
import ScreenPlan.Proofs.Json.Data

/-!
# What is read

Whatever text a value is read from, the value is JSON data: nothing in it is foreign, and all numbers are finite. The
reader takes no integer that is too long to be written again, so the value is brief as well.
-/

namespace ScreenPlan.Json
open Value (Throughout)

variable {v : Value} {s rest : List Char}

/-- What a text can say without containers. -/
def Said (v : Value) : Prop := v.IsJson ∧ ∀ n, v = .int n → digitCount n ≤ maxDigits

theorem said_null : Throughout Said .null := .leaf rfl rfl ⟨.null, nofun⟩

theorem said_bool (b : Bool) : Throughout Said (.bool b) := .leaf rfl rfl ⟨.bool b, nofun⟩

theorem said_str (text : String) : Throughout Said (.str text) := .leaf rfl rfl ⟨.str text, nofun⟩

theorem isJson_of_said (said : v.Throughout Said) : v.IsJson :=
  Value.throughout_isJson.mp (said.mono fun _ leaf => leaf.1)

theorem brief_of_said (said : v.Throughout Said) : v.Brief := said.mono fun _ leaf => leaf.2

/-! ### Numbers -/

theorem ofDigitChars_lt (digits : ∀ c ∈ s, c.isDigit = true) : Nat.ofDigitChars 10 s 0 < 10 ^ s.length := by
  induction s with
  | nil => exact Nat.one_pos
  | cons c s ih =>
    obtain ⟨digit, digits⟩ := List.forall_mem_cons.mp digits
    have small : c.toNat - '0'.toNat < 10 := by
      have bound := (Char.isDigit_iff_toNat.mp digit).2
      have nine : '9'.toNat = '0'.toNat + 9 := rfl
      omega
    rw [Nat.ofDigitChars_cons, Nat.ofDigitChars_eq_ofDigitChars_zero, Nat.mul_zero, Nat.zero_add, List.length_cons,
      Nat.pow_succ]
    calc 10 ^ s.length * (c.toNat - '0'.toNat) + Nat.ofDigitChars 10 s 0
        < 10 ^ s.length * (c.toNat - '0'.toNat) + 10 ^ s.length := Nat.add_lt_add_left (ih digits) _
      _ = 10 ^ s.length * (c.toNat - '0'.toNat + 1) := (Nat.mul_succ _ _).symm
      _ ≤ 10 ^ s.length * 10 := Nat.mul_le_mul_left _ small

theorem digitCount_read (digits : ∀ c ∈ s, c.isDigit = true) (short : s.length ≤ maxDigits) (negative : Bool) :
    digitCount (if negative then -(Nat.ofDigitChars 10 s 0 : Int) else Nat.ofDigitChars 10 s 0) ≤ maxDigits := by
  have bound : Nat.ofDigitChars 10 s 0 < 10 ^ maxDigits :=
    Nat.lt_of_lt_of_le (ofDigitChars_lt digits) (Nat.pow_le_pow_right (by decide) short)
  have few := (Nat.length_toDigits_le_iff (by decide) (by decide)).mpr bound
  have size : (if negative then -(Nat.ofDigitChars 10 s 0 : Int) else Nat.ofDigitChars 10 s 0).natAbs =
      Nat.ofDigitChars 10 s 0 := by
    split
    · rw [Int.natAbs_neg, Int.natAbs_natCast]
    · rw [Int.natAbs_natCast]
  rwa [digitCount, size]

theorem finite_nearestFloat? {digits : List Char} {exponent : Int} {x : Float}
    (some : nearestFloat? digits exponent = some x) : x.isFinite = true := by
  unfold nearestFloat? at some
  dsimp only at some
  split at some
  · obtain rfl := Option.some.inj some
    decide
  · split at some
    · cases some
    · split at some
      · cases some
      · next bounded =>
        obtain rfl := Option.some.inj some
        rw [Doubles.isFinite_iff, Doubles.isNaN_nearestDouble, Bool.false_or]
        exact Bool.not_eq_true _ ▸ bounded

theorem said_float {negative : Bool} {whole part : List Char} {e : Int}
    (read : magnitude.float negative whole part e s = .ok (v, rest)) : v.Throughout Said := by
  unfold magnitude.float at read
  split at read
  · cases read
  · next x some =>
    obtain ⟨rfl, -⟩ := Prod.mk.inj (Except.ok.inj read)
    have finite := finite_nearestFloat? some
    refine .leaf rfl rfl ⟨.float (Doubles.isFinite_iff.mp ?_), nofun⟩
    split
    · exact Doubles.isFinite_neg finite
    · exact finite

theorem said_magnitude {negative : Bool} (read : magnitude negative s = .ok (v, rest)) : v.Throughout Said := by
  unfold magnitude at read
  dsimp only at read
  split at read
  · cases read
  · split at read
    · cases read
    · split at read
      · cases read
      · split at read
        · by_cases tooLong : maxIntegerLength < (s.takeWhile Char.isDigit).length + (if negative then 1 else 0)
          · rw [if_pos tooLong] at read
            cases read
          · rw [if_neg tooLong] at read
            obtain ⟨rfl, -⟩ := Prod.mk.inj (Except.ok.inj read)
            refine .leaf rfl rfl ⟨.int _, fun n same => ?_⟩
            obtain rfl := Value.int.inj same
            have short := Nat.le_trans (Nat.le_add_right _ _) (Nat.le_of_not_lt tooLong)
            exact digitCount_read (fun c hc => List.mem_takeWhile_imp hc) short negative
        · exact said_float read
      · exact said_float read

theorem said_number {negative : Bool} (read : number negative s = .ok (v, rest)) : v.Throughout Said := by
  unfold number at read
  split at read
  · cases read
  · split at read
    · exact said_magnitude read
    · cases read

theorem word_ok {tail : List Char} {w : Value} (read : word tail w s = .ok (v, rest)) : v = w := by
  unfold word at read
  split at read
  · cases read
  · split at read
    · exact (Prod.mk.inj (Except.ok.inj read)).1.symm
    · cases read

/-! ### Values -/

theorem forall_put {P : Value → Prop} {done : Table Value} (earlier : ∀ e ∈ done, P e.2) (name : String) (new : P v) :
    ∀ e ∈ done.put name v, P e.2 := by
  induction done with
  | nil =>
    intro e member
    obtain rfl := List.mem_singleton.mp member
    exact new
  | cons d done ih =>
    obtain ⟨first, later⟩ := List.forall_mem_cons.mp earlier
    rw [Table.put]
    split
    · exact List.forall_mem_cons.mpr ⟨new, later⟩
    · exact List.forall_mem_cons.mpr ⟨first, ih later⟩

/-- What the three readers promise with the same fuel. -/
structure ReadsSaid (fuel : Nat) : Prop where
  value : ∀ {room s v rest}, Json.value fuel room s = .ok (v, rest) → v.Throughout Said
  items : ∀ {room done s v rest}, (∀ x ∈ done, x.Throughout Said) → Json.items fuel room done s = .ok (v, rest) →
    v.Throughout Said
  members : ∀ {room done s v rest}, (∀ e ∈ done, e.2.Throughout Said) →
    Json.members fuel room done s = .ok (v, rest) → v.Throughout Said

theorem value_step {fuel room : Nat} (ih : ReadsSaid fuel) (read : value (fuel + 1) room s = .ok (v, rest)) :
    v.Throughout Said := by
  have none : ∀ x ∈ ([] : List Value), x.Throughout Said := fun x member => absurd member List.not_mem_nil
  have noField : ∀ e ∈ ([] : Table Value), e.2.Throughout Said := fun e member => absurd member List.not_mem_nil
  unfold value at read
  split at read
  · cases read
  · next text _ =>
    cases quoted : unquote [] text with
    | error => rw [quoted] at read; cases read
    | ok found =>
      rw [quoted] at read
      obtain ⟨rfl, -⟩ := Prod.mk.inj (Except.ok.inj read)
      exact said_str found.1
  · split at read
    · cases read
    · split at read
      · obtain ⟨rfl, -⟩ := Prod.mk.inj (Except.ok.inj read)
        exact .list none
      · exact ih.items none read
  · split at read
    · cases read
    · split at read
      · obtain ⟨rfl, -⟩ := Prod.mk.inj (Except.ok.inj read)
        exact .object noField
      · exact ih.members noField read
  · exact word_ok read ▸ said_bool true
  · exact word_ok read ▸ said_bool false
  · exact word_ok read ▸ said_null
  · exact said_number read
  · split at read
    · exact said_number read
    · cases read

theorem items_step {fuel room : Nat} {done : List Value} (ih : ReadsSaid fuel)
    (earlier : ∀ x ∈ done, x.Throughout Said) (read : items (fuel + 1) room done s = .ok (v, rest)) :
    v.Throughout Said := by
  unfold items at read
  split at read
  · cases read
  · next w left first =>
    have all : ∀ x ∈ w :: done, x.Throughout Said := List.forall_mem_cons.mpr ⟨ih.value first, earlier⟩
    split at read
    · cases read
    · obtain ⟨rfl, -⟩ := Prod.mk.inj (Except.ok.inj read)
      exact .list fun x member => all x (List.mem_reverse.mp member)
    · split at read
      · cases read
      · exact ih.items all read
    · cases read

theorem members_step {fuel room : Nat} {done : Table Value} (ih : ReadsSaid fuel)
    (earlier : ∀ e ∈ done, e.2.Throughout Said) (read : members (fuel + 1) room done s = .ok (v, rest)) :
    v.Throughout Said := by
  unfold members at read
  split at read
  · cases read
  · split at read
    · cases read
    · next key _ _ =>
      split at read
      · cases read
      · split at read
        · cases read
        · next w left first =>
          have all := forall_put earlier key (ih.value first)
          split at read
          · cases read
          · obtain ⟨rfl, -⟩ := Prod.mk.inj (Except.ok.inj read)
            exact .object all
          · split at read
            · cases read
            · exact ih.members all read
          · cases read
      · cases read
  · cases read

theorem readsSaid (fuel : Nat) : ReadsSaid fuel := by
  -- Each of the three readers calls the others with less fuel, so one induction carries all promises.
  induction fuel with
  | zero =>
    refine ⟨fun read => ?_, fun _ read => ?_, fun _ read => ?_⟩
    · rw [value] at read
      cases read
    · rw [items] at read
      cases read
    · rw [members] at read
      cases read
  | succ fuel ih => exact ⟨value_step ih, items_step ih, members_step ih⟩

theorem said_document {s : List Char} (read : document s = .ok v) : v.Throughout Said := by
  unfold document at read
  split at read
  · cases read
  · next w rest first =>
    split at read
    · exact Except.ok.inj read ▸ (readsSaid _).value first
    · cases read

theorem said_decode {text : String} (decoded : decode text = .ok v) : v.Throughout Said := by
  rw [decode] at decoded
  cases read : document text.toList with
  | error => rw [read] at decoded; cases decoded
  | ok w =>
    rw [read] at decoded
    exact Except.ok.inj decoded ▸ said_document read

end ScreenPlan.Json
