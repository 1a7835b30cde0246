import Mathlib
import ScreenPlan.Json.Printer
import ScreenPlan.Json.Reader

/-!
# Scalars read back

Quoted strings and integers say where they end: the reader takes exactly what the printer wrote,
whatever follows a closing quote and whatever but a part of a number follows an integer.
-/

namespace ScreenPlan.Json

/-! ### Strings -/

theorem hexValue?_digitChar {d : Nat} (small : d < 16) : hexValue? (Nat.digitChar d) = some d := by
  revert d
  decide

theorem codeUnit_control {n : Nat} (control : n < 0x20) (t : List Char) :
    codeUnit ('0' :: '0' :: Nat.digitChar (n / 16) :: Nat.digitChar (n % 16) :: t) = .ok n := by
  have high := hexValue?_digitChar (show n / 16 < 16 by omega)
  have low := hexValue?_digitChar (show n % 16 < 16 by omega)
  have zero : hexValue? '0' = some 0 := by decide
  have enough : ¬ byteCount ('0' :: '0' :: Nat.digitChar (n / 16) :: Nat.digitChar (n % 16) :: t) < 4 := by
    have := (Nat.digitChar (n / 16)).utf8Size_pos
    have := (Nat.digitChar (n % 16)).utf8Size_pos
    have : Char.utf8Size '0' = 1 := by decide
    simp only [byteCount, List.foldr_cons]
    omega
  rw [codeUnit, if_neg enough]
  simp only [hexUnit, zero, high, low]
  congr 1
  omega

theorem unquote_plain {c : Char} (quote : c ≠ '"') (backslash : c ≠ '\\') (printed : ¬ c.toNat < 0x20)
    (done t : List Char) : unquote done (c :: t) = unquote (c :: done) t := by
  rw [unquote.eq_6 done c t quote (fun same _ => backslash same) (fun _ same _ => backslash same)
    (fun _ _ same _ => backslash same), if_neg printed]

theorem unquote_short {c d : Char} (short : shortEscape? c = some d) (done t : List Char) :
    unquote done ('\\' :: c :: t) = unquote (d :: done) t := by
  have noCode : c ≠ 'u' := by
    rintro rfl
    cases short
  rw [unquote.eq_5 done c t noCode, short]

theorem unquote_control {n : Nat} (control : n < 0x20) (done t : List Char) :
    unquote done ('\\' :: 'u' :: '0' :: '0' :: Nat.digitChar (n / 16) :: Nat.digitChar (n % 16) :: t) =
      unquote (Char.ofNat n :: done) t := by
  have low : isLowSurrogate n = false := by
    simp [isLowSurrogate]
    omega
  have high : isHighSurrogate n = false := by
    simp [isHighSurrogate]
    omega
  rw [unquote, codeUnit_control control]
  simp only [low, high]
  rfl

theorem unquote_escapeChar (done : List Char) (c : Char) (t : List Char) :
    unquote done (escapeChar c ++ t) = unquote (c :: done) t := by
  unfold escapeChar
  split
  · exact unquote_short rfl done t
  · exact unquote_short rfl done t
  · exact unquote_short rfl done t
  · exact unquote_short rfl done t
  · exact unquote_short rfl done t
  · exact unquote_short rfl done t
  · exact unquote_short rfl done t
  · next quote backslash _ _ _ _ _ =>
    split
    · next control =>
      have := unquote_control control done t
      rwa [Char.ofNat_toNat] at this
    · next printed => exact unquote_plain quote backslash printed done t

theorem unquote_escaped (done s rest : List Char) :
    unquote done (s.flatMap escapeChar ++ '"' :: rest) = .ok (String.ofList (done.reverse ++ s), rest) := by
  induction s generalizing done with
  | nil =>
    rw [List.flatMap_nil, List.nil_append, unquote, List.append_nil]
  | cons c s ih =>
    rw [List.flatMap_cons, List.append_assoc, unquote_escapeChar, ih, List.reverse_cons,
      List.append_assoc, List.singleton_append]

theorem unquote_quote (text : String) (rest : List Char) :
    unquote [] (text.toList.flatMap escapeChar ++ '"' :: rest) = .ok (text, rest) := by
  rw [unquote_escaped, List.reverse_nil, List.nil_append, String.ofList_toList]

/-! ### Integers -/

/-- Integers with this many digits are never too long for the reader. -/
def exactDigits : Nat := 4000

/-- What follows is no part of a number that ends here. -/
def Ends (rest : List Char) : Prop :=
  ∀ c ∈ rest.head?, c.isDigit = false ∧ c ≠ '.' ∧ c ≠ 'e' ∧ c ≠ 'E'

theorem takeWhile_digits {ds rest : List Char} (digits : ∀ c ∈ ds, c.isDigit = true) (ends : Ends rest) :
    (ds ++ rest).takeWhile Char.isDigit = ds := by
  rw [List.takeWhile_append_of_pos digits]
  cases rest with
  | nil => simp
  | cons c rest => simp [(ends c rfl).1]

theorem dropWhile_digits {ds rest : List Char} (digits : ∀ c ∈ ds, c.isDigit = true) (ends : Ends rest) :
    (ds ++ rest).dropWhile Char.isDigit = rest := by
  rw [List.dropWhile_append_of_pos digits]
  cases rest with
  | nil => rfl
  | cons c rest => simp [(ends c rfl).1]

theorem fraction_of_ends {rest : List Char} (ends : Ends rest) : fraction rest = .ok (none, rest) := by
  unfold fraction
  split
  · exact ((ends _ rfl).2.1 rfl).elim
  · rfl

theorem exponent_of_ends {rest : List Char} (ends : Ends rest) : exponent rest = .ok (none, rest) := by
  cases rest with
  | nil => rfl
  | cons c rest =>
    obtain ⟨-, -, lower, upper⟩ := ends c rfl
    simp [exponent, lower, upper]

theorem head_toDigits {n : Nat} (positive : 0 < n) : (Nat.toDigits 10 n).head? ≠ some '0' := by
  induction n using Nat.strongRecOn with
  | ind n ih =>
    by_cases small : n < 10
    · rw [Nat.toDigits_of_lt_base small]
      simp
      omega
    · rw [Nat.toDigits_of_base_le (by decide) (by omega)]
      have := ih (n / 10) (by omega) (by omega)
      cases same : Nat.toDigits 10 (n / 10) with
      | nil => exact (Nat.toDigits_ne_nil same).elim
      | cons d ds => rwa [same] at this

theorem magnitude_toDigits {n : Nat} {negative : Bool}
    (short : (Nat.toDigits 10 n).length + (if negative then 1 else 0) ≤ maxIntegerLength) {rest : List Char}
    (ends : Ends rest) : magnitude negative (Nat.toDigits 10 n ++ rest) =
      .ok (.int (if negative then -n else n), rest) := by
  have digits : ∀ c ∈ Nat.toDigits 10 n, c.isDigit = true :=
    fun c hc => Nat.isDigit_of_mem_toDigits (by decide) (by decide) hc
  have leading : ¬ ((Nat.toDigits 10 n).head? = some '0' ∧ 1 < (Nat.toDigits 10 n).length) := by
    rintro ⟨zero, long⟩
    by_cases positive : 0 < n
    · exact head_toDigits positive zero
    · obtain rfl : n = 0 := by omega
      simp at long
  unfold magnitude
  simp only [takeWhile_digits digits ends, dropWhile_digits digits ends, if_neg leading,
    fraction_of_ends ends, exponent_of_ends ends, if_neg (Nat.not_lt.mpr short), Nat.ofDigitChars_ten_toDigits]

theorem number_toDigits {n : Nat} {negative : Bool}
    (short : (Nat.toDigits 10 n).length + (if negative then 1 else 0) ≤ maxIntegerLength) {rest : List Char}
    (ends : Ends rest) : number negative (Nat.toDigits 10 n ++ rest) =
      .ok (.int (if negative then -n else n), rest) := by
  rw [← magnitude_toDigits short ends]
  unfold number
  cases same : Nat.toDigits 10 n with
  | nil => exact (Nat.toDigits_ne_nil same).elim
  | cons d ds =>
    have digit : d.isDigit = true :=
      Nat.isDigit_of_mem_toDigits (by decide) (by decide) (same ▸ List.mem_cons_self)
    simp [digit]

end ScreenPlan.Json
