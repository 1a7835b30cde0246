import ScreenPlan.Proofs.Json.Phrase

/-!
# Phrases in escaped texts

A text is escaped before it is searched. A phrase of small letters and blanks is found where it stands in the text
itself. It is found as well where a control character takes the place of its first letter, if the escape of that
character ends in the letter. Nothing else is hidden or made up.
-/

namespace ScreenPlan.Json
open Text (Mentions IsPhrase lowerChar prefix_append_cons infix_append_cons)

/-- Small letters and blanks, of which no escape is made. -/
def Worded (s : List Char) : Prop := ∀ c ∈ s, c.isLower = true ∨ c = ' '

/-- The escape of the control character ends in the letter. -/
def Spells (control letter : Char) : Prop := control.toNat < 0x20 ∧ (escapeChar control).getLast? = some letter

instance (control letter : Char) : Decidable (Spells control letter) := inferInstanceAs (Decidable (_ ∧ _))

/-! ### Single characters -/

/-- The character is written as an escape, of which only the last character may stand in a phrase. -/
structure Escapes (c : Char) (before : List Char) (last : Char) : Prop where
  written : escapeChar c = '\\' :: (before ++ [last])
  before : before ∈ [[], ['u', '0', '0', '0'], ['u', '0', '0', '1']]
  small : lowerChar last = [last]
  alone : lowerChar c = [c]
  unworded : ¬ (c.isLower = true ∨ c = ' ')
  shown : c.toNat < 0x20 ∨ last = c

theorem lowerChar_control {c : Char} (control : c.toNat < 0x20) : lowerChar c = [c] := by
  have other {d : Char} (above : 0x20 ≤ d.toNat) : c ≠ d := by
    rintro rfl
    omega
  have lower : ¬ (c.val ≥ 'A'.val ∧ c.val ≤ 'Z'.val) := by
    rintro ⟨least, -⟩
    have : 'A'.toNat ≤ c.toNat := UInt32.le_iff_toNat_le.mp least
    have : 0x20 < 'A'.toNat := by decide
    omega
  rw [lowerChar, if_neg (other (by decide)), if_neg (other (by decide)), Char.toLower, dif_neg lower]

theorem not_worded_control {c : Char} (control : c.toNat < 0x20) : ¬ (c.isLower = true ∨ c = ' ') := by
  rintro (lower | rfl)
  · have least : 'a'.toNat ≤ c.toNat := by
      rw [Char.isLower, Bool.and_eq_true, decide_eq_true_eq] at lower
      exact UInt32.le_iff_toNat_le.mp lower.1
    have : 0x20 < 'a'.toNat := by decide
    omega
  · exact absurd control (by decide)

theorem lowerChar_digitChar : ∀ d < 16, lowerChar (Nat.digitChar d) = [Nat.digitChar d] := by
  decide

theorem escapeChar_control {c : Char} (control : c.toNat < 0x20) : ∃ before last,
    escapeChar c = '\\' :: (before ++ [last]) ∧ before ∈ [[], ['u', '0', '0', '0'], ['u', '0', '0', '1']] ∧
      lowerChar last = [last] := by
  have start : ∀ d < 2, ['u', '0', '0', Nat.digitChar d] ∈ [[], ['u', '0', '0', '0'], ['u', '0', '0', '1']] := by
    decide
  unfold escapeChar
  split
  iterate 7 exact ⟨[], _, rfl, by decide, by decide⟩
  rw [if_pos control]
  exact ⟨_, _, rfl, start _ (by omega), lowerChar_digitChar _ (by omega)⟩

theorem escapeChar_plain {c : Char} (above : 0x20 ≤ c.toNat) (quote : c ≠ '"') (backslash : c ≠ '\\') :
    escapeChar c = [c] := by
  unfold escapeChar
  split
  iterate 7 contradiction
  exact if_neg (Nat.not_lt.mpr above)

theorem escapeChar_cases (c : Char) : (escapeChar c = [c] ∧ 0x20 ≤ c.toNat) ∨ ∃ before last, Escapes c before last := by
  by_cases control : c.toNat < 0x20
  · obtain ⟨before, last, written, start, small⟩ := escapeChar_control control
    exact .inr ⟨before, last, written, start, small, lowerChar_control control, not_worded_control control,
      .inl control⟩
  · have above := Nat.not_lt.mp control
    by_cases quote : c = '"'
    · subst quote
      exact .inr ⟨[], '"', rfl, by decide, by decide, by decide, by decide, .inr rfl⟩
    · by_cases backslash : c = '\\'
      · subst backslash
        exact .inr ⟨[], '\\', rfl, by decide, by decide, by decide, by decide, .inr rfl⟩
      · exact .inl ⟨escapeChar_plain above quote backslash, above⟩

/-! ### Texts -/

/-- A text as it is searched. -/
def lowered (s : List Char) : List Char := s.flatMap lowerChar

theorem lowered_cons (c : Char) (s : List Char) : lowered (c :: s) = lowerChar c ++ lowered s := List.flatMap_cons

theorem lowered_append (s t : List Char) : lowered (s ++ t) = lowered s ++ lowered t := List.flatMap_append

theorem Worded.tail {c : Char} {s : List Char} (worded : Worded (c :: s)) : Worded s :=
  fun d hd => worded d (List.mem_cons_of_mem _ hd)

theorem prefix_append_congr {a s t q : List Char} (worded : Worded q)
    (same : ∀ q, Worded q → (q <+: s ↔ q <+: t)) : q <+: a ++ s ↔ q <+: a ++ t := by
  induction a generalizing q with
  | nil => exact same q worded
  | cons c a ih =>
    cases q with
    | nil => exact iff_of_true List.nil_prefix List.nil_prefix
    | cons d q => rw [List.cons_append, List.cons_append, List.cons_prefix_cons, List.cons_prefix_cons, ih worded.tail]

theorem Escapes.lowered_written {c last : Char} {before : List Char} (escapes : Escapes c before last) (s : List Char) :
    lowered (escapeChar c ++ s) = '\\' :: (before ++ last :: lowered s) := by
  have fixed : ∀ b ∈ [[], ['u', '0', '0', '0'], ['u', '0', '0', '1']], lowered ('\\' :: b) = '\\' :: b := by decide
  rw [escapes.written, ← List.cons_append, lowered_append, lowered_append, fixed _ escapes.before, lowered_cons,
    escapes.small]
  simp [lowered]

/-- Whether words begin a text or its escaped form is the same. -/
theorem prefix_escaped {q : List Char} (worded : Worded q) (s : List Char) :
    q <+: lowered (s.flatMap escapeChar) ↔ q <+: lowered s := by
  induction s generalizing q with
  | nil => rfl
  | cons c s ih =>
    rw [List.flatMap_cons, lowered_cons]
    rcases escapeChar_cases c with ⟨plain, -⟩ | ⟨before, last, escapes⟩
    · rw [plain, List.singleton_append, lowered_cons]
      exact prefix_append_congr worded fun q worded => ih worded
    · -- Neither the character nor the backslash of its escape begins a word.
      have outside : c ∉ q := fun among => escapes.unworded (worded c among)
      have outside' : '\\' ∉ q := fun among => absurd (worded _ among) (by decide)
      have begins := prefix_append_cons (a := []) (b := before ++ last :: lowered (s.flatMap escapeChar)) outside'
      have begins' := prefix_append_cons (a := []) (b := lowered s) outside
      rw [escapes.lowered_written, escapes.alone]
      exact begins.trans begins'.symm

theorem Escapes.spells_iff {c last letter : Char} {before : List Char} (escapes : Escapes c before last)
    (worded : letter.isLower = true ∨ letter = ' ') : Spells c letter ↔ letter = last := by
  have final : (escapeChar c).getLast? = some last := by
    rw [escapes.written, ← List.cons_append, List.getLast?_concat]
  rw [Spells, final]
  constructor
  · rintro ⟨-, same⟩
    exact (Option.some.inj same).symm
  · rintro rfl
    refine ⟨escapes.shown.resolve_right ?_, rfl⟩
    rintro rfl
    exact escapes.unworded worded

theorem not_control_lowerChar {c : Char} (above : 0x20 ≤ c.toNat) : ∀ d ∈ lowerChar c, 0x20 ≤ d.toNat := by
  unfold lowerChar
  split
  · exact List.forall_mem_singleton.mpr (by decide)
  split
  · exact List.forall_mem_cons.mpr ⟨by decide, List.forall_mem_singleton.mpr (by decide)⟩
  rw [List.forall_mem_singleton, Char.toLower]
  split
  · next upper =>
    have most : c.val.toNat ≤ 'Z'.val.toNat := UInt32.le_iff_toNat_le.mp upper.2
    have bound : 'Z'.val.toNat = 90 := by decide
    have shift : ('a'.val - 'A'.val).toNat = 32 := by decide
    show 0x20 ≤ (c.val + ('a'.val - 'A'.val)).toNat
    rw [UInt32.toNat_add, shift]
    omega
  · exact above

section
variable {h : Char} {t : List Char}

/-- No occurrence begins before the first character. -/
theorem infix_skip {a : List Char} (outside : h ∉ a) (s : List Char) : h :: t <:+: a ++ s ↔ h :: t <:+: s := by
  induction a with
  | nil => rfl
  | cons c a ih =>
    have other : ¬ h :: t <+: c :: (a ++ s) := fun begins =>
      outside ((List.cons_prefix_cons.mp begins).1 ▸ List.mem_cons_self)
    rw [List.cons_append, List.infix_cons_iff, or_iff_right other]
    exact ih fun among => outside (List.mem_cons_of_mem _ among)

theorem infix_append_congr {a s s' : List Char} {other : Prop} (worded : Worded (h :: t))
    (begins : ∀ q, Worded q → (q <+: s ↔ q <+: s')) (stands : h :: t <:+: s ↔ h :: t <:+: s' ∨ other) :
    h :: t <:+: a ++ s ↔ h :: t <:+: a ++ s' ∨ other := by
  induction a with
  | nil => exact stands
  | cons c a ih =>
    have first := prefix_append_congr (a := c :: a) worded begins
    rw [List.cons_append, List.cons_append] at first ⊢
    rw [List.infix_cons_iff, List.infix_cons_iff, first, ih, or_assoc]

/-- Words that are too long for the front of an escape begin at its end or after it. -/
theorem Escapes.infix_written {c last : Char} {before : List Char} (escapes : Escapes c before last)
    (worded : Worded (h :: t)) (long : 3 ≤ t.length) (s : List Char) :
    h :: t <:+: '\\' :: (before ++ last :: s) ↔ h :: t <:+: last :: s := by
  have outside {d : Char} (odd : ¬ (d.isLower = true ∨ d = ' ')) : d ∉ h :: t := fun among => odd (worded d among)
  have short {a : List Char} (few : a.length ≤ 3) : ¬ h :: t <:+: a := fun within => by
    have := within.length_le
    rw [List.length_cons] at this
    omega
  have front := infix_append_cons (a := []) (b := before ++ last :: s) (outside (d := '\\') (by decide))
  rw [List.nil_append] at front
  rw [front, or_iff_right (short (by decide))]
  have start := escapes.before
  simp only [List.mem_cons, List.not_mem_nil, or_false] at start
  rcases start with rfl | rfl | rfl
  · rfl
  all_goals
    refine (infix_append_cons (a := ['u', '0', '0']) (b := last :: s) (outside (by decide))).trans ?_
    exact or_iff_right (short (by decide))

/-- Words stand in an escaped text where they stand in the text, and where a character that spells their first letter
stands before the others. -/
theorem infix_escaped (worded : Worded (h :: t)) (long : 3 ≤ t.length) (s : List Char) :
    h :: t <:+: lowered (s.flatMap escapeChar) ↔
      h :: t <:+: lowered s ∨ ∃ k, Spells k h ∧ k :: t <:+: lowered s := by
  induction s with
  | nil => simp [lowered]
  | cons c s ih =>
    rw [List.flatMap_cons, lowered_cons]
    rcases escapeChar_cases c with ⟨plain, above⟩ | ⟨before, last, escapes⟩
    · have spelled : (∃ k, Spells k h ∧ k :: t <:+: lowerChar c ++ lowered s) ↔
          ∃ k, Spells k h ∧ k :: t <:+: lowered s := by
        refine exists_congr fun k => and_congr_right fun spells => infix_skip (fun among => ?_) _
        exact absurd spells.1 (Nat.not_lt.mpr (not_control_lowerChar above k among))
      rw [plain, List.singleton_append, lowered_cons, spelled]
      exact infix_append_congr worded (fun q worded => prefix_escaped worded s) ih
    · have own : h :: t <:+: c :: lowered s ↔ h :: t <:+: lowered s :=
        infix_skip (a := [c]) (fun among => escapes.unworded (worded c (List.mem_singleton.mp among ▸ List.mem_cons_self)))
          _
      have spelled : (∃ k, Spells k h ∧ k :: t <:+: c :: lowered s) ↔
          (Spells c h ∧ t <+: lowered s) ∨ ∃ k, Spells k h ∧ k :: t <:+: lowered s := by
        simp only [List.infix_cons_iff, List.cons_prefix_cons, and_or_left, exists_or]
        refine or_congr_left ⟨?_, fun ⟨spells, begins⟩ => ⟨c, spells, rfl, begins⟩⟩
        rintro ⟨k, spells, rfl, begins⟩
        exact ⟨spells, begins⟩
      -- The end of the escape begins the words if the others begin the rest, which is not lost by its escapes.
      rw [escapes.lowered_written, escapes.infix_written worded long, escapes.alone, List.singleton_append, own,
        spelled, List.infix_cons_iff, List.cons_prefix_cons, prefix_escaped worded.tail, ih,
        ← escapes.spells_iff (worded h List.mem_cons_self), or_left_comm]

theorem mentions_escaped (worded : Worded (h :: t)) (long : 3 ≤ t.length) (text : String) :
    Mentions (h :: t) (escaped text) ↔
      Mentions (h :: t) text.toList ∨ ∃ k, Spells k h ∧ Mentions (k :: t) text.toList :=
  infix_escaped worded long text.toList

end

end ScreenPlan.Json
