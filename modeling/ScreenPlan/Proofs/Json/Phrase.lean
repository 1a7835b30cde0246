import ScreenPlan.Proofs.Json.Data
import ScreenPlan.Proofs.Text.Phrase

/-!
# Phrases in printed values

The parts of a printed value are names, texts and numbers with gaps between them. Phrases are found
in the names and texts alone, so they are found in all layouts or in none.
-/

namespace ScreenPlan

/-- The text is a name or a text of the value. -/
inductive Value.Holds (text : String) : Value → Prop
  | text : Holds text (.str text)
  | item {xs : List Value} {x : Value} (member : x ∈ xs) (inside : Holds text x) : Holds text (.list xs)
  | name {fs : Table Value} {v : Value} (member : (text, v) ∈ fs) : Holds text (.object fs)
  | member {fs : Table Value} {e : String × Value} (member : e ∈ fs) (inside : Holds text e.2) :
      Holds text (.object fs)

namespace Json
open Text (Mentions IsPhrase Gap breaks)

def escaped (text : String) : List Char := text.toList.flatMap escapeChar

/-- A phrase stands in a name or a text of the value as it is written. -/
def MentionedIn (phrase : List Char) (v : Value) : Prop :=
  ∃ text, v.Holds text ∧ Mentions phrase (escaped text)

/-! ### Numbers -/

/-- Characters that numbers are written with. -/
def Numeric (c : Char) : Prop := c.isDigit = true ∨ c ∈ ['+', '-', '.', 'e']

theorem numeric_mark : ∀ c ∈ ['0', '+', '-', '.', 'e'], Numeric c := by
  intro c hc
  rcases List.mem_cons.mp hc with rfl | mark
  · exact .inl (by decide)
  · exact .inr mark

theorem numeric_zeros (n : Nat) : ∀ c ∈ List.replicate n '0', Numeric c := by
  intro c hc
  rw [List.eq_of_mem_replicate hc]
  exact numeric_mark _ (by decide)

theorem numeric_toDigits (n : Nat) : ∀ c ∈ Nat.toDigits 10 n, Numeric c :=
  fun _ hc => .inl (Nat.isDigit_of_mem_toDigits (by decide) (by decide) hc)

theorem numeric_printInt (n : Int) : ∀ c ∈ printInt n, Numeric c := by
  unfold printInt
  split
  · exact List.forall_mem_cons.mpr ⟨numeric_mark _ (by decide), numeric_toDigits _⟩
  · exact numeric_toDigits _

section
variable (s : Spelling) {digits : List Char} (numeric : ∀ c ∈ digits, Numeric c)
include numeric

theorem numeric_positional (k : Int) : ∀ c ∈ s.positional digits k, Numeric c := by
  have point : Numeric '.' := numeric_mark _ (by decide)
  have zero : Numeric '0' := numeric_mark _ (by decide)
  have whole (place : Nat) : ∀ c ∈ digits.take place ++ List.replicate (place - digits.length) '0', Numeric c :=
    List.forall_mem_append.mpr ⟨fun c hc => numeric c (List.mem_of_mem_take hc), numeric_zeros _⟩
  unfold Spelling.positional
  split
  · simp only [List.forall_mem_cons, List.forall_mem_append]
    exact ⟨zero, point, numeric_zeros _, numeric⟩
  · dsimp only
    split
    · split
      · refine List.forall_mem_append.mpr ⟨whole _, ?_⟩
        simp only [List.forall_mem_cons, List.not_mem_nil, false_imp_iff, implies_true, and_true]
        exact ⟨point, zero⟩
      · exact whole _
    · refine List.forall_mem_append.mpr ⟨whole _, List.forall_mem_cons.mpr ⟨point, fun c hc => ?_⟩⟩
      exact numeric c (List.mem_of_mem_drop hc)

omit numeric in
theorem numeric_exponentOf (k : Int) : ∀ c ∈ s.exponentOf k, Numeric c := by
  have mark (c : Char) (h : c ∈ ['0', '+', '-', '.', 'e']) : Numeric c := numeric_mark c h
  have numerals := numeric_toDigits k.natAbs
  unfold Spelling.exponentOf Spelling.digitsOf
  dsimp only
  refine List.forall_mem_cons.mpr ⟨mark _ (by decide), List.forall_mem_append.mpr ⟨?_, ?_⟩⟩
  · split
    · exact List.forall_mem_singleton.mpr (mark _ (by decide))
    · split
      · exact List.forall_mem_singleton.mpr (mark _ (by decide))
      · exact List.forall_mem_nil _
  · split
    · exact List.forall_mem_cons.mpr ⟨mark _ (by decide), numerals⟩
    · exact numerals

theorem numeric_scientific (k : Int) : ∀ c ∈ s.scientific digits k, Numeric c := by
  have exponent := numeric_exponentOf s k
  unfold Spelling.scientific
  split
  · exact exponent
  · exact List.forall_mem_cons.mpr ⟨(List.forall_mem_cons.mp numeric).1, exponent⟩
  · obtain ⟨first, others⟩ := List.forall_mem_cons.mp numeric
    refine List.forall_mem_cons.mpr ⟨first, List.forall_mem_append.mpr ⟨?_, exponent⟩⟩
    exact List.forall_mem_cons.mpr ⟨numeric_mark _ (by decide), others⟩

omit s in
theorem numeric_significant : ∀ c ∈ Spelling.significant digits, Numeric c := by
  intro c hc
  have kept := (List.dropWhile_sublist _).subset (List.mem_reverse.mp hc)
  exact numeric c (List.mem_reverse.mp kept)

end

/-- A finite number is written with numeric characters in every spelling. -/
theorem numeric_write (s : Spelling) {x : Float} (finite : (x.isNaN || x.isInf) = false) :
    ∀ c ∈ s.write x, Numeric c := by
  have magnitude : ∀ c ∈ s.magnitude x, Numeric c := by
    unfold Spelling.magnitude
    split
    · exact numeric_positional s (List.forall_mem_singleton.mpr (numeric_mark _ (by decide))) 0
    · dsimp only
      have kept := numeric_significant (numeric_toDigits ((Binary.ofFloat x).shortest s.tie).digits)
      split
      · exact numeric_positional s kept _
      · exact numeric_scientific s kept _
  obtain ⟨number, bounded⟩ := Bool.or_eq_false_iff.mp finite
  rw [Spelling.write, number, bounded]
  simp only [Bool.false_eq_true, if_false]
  split
  · exact List.forall_mem_cons.mpr ⟨numeric_mark _ (by decide), magnitude⟩
  · exact magnitude

theorem lowerChar_numeric {c : Char} (numeric : Numeric c) : Text.lowerChar c = [c] := by
  rcases numeric with digit | mark
  · obtain ⟨-, most⟩ : '0'.toNat ≤ c.toNat ∧ c.toNat ≤ '9'.toNat := by
      simpa [Char.isDigit, UInt32.le_iff_toNat_le] using digit
    have other {d : Char} (above : '9'.toNat < d.toNat) : c ≠ d := by
      rintro rfl
      omega
    have lower : ¬ (c.val ≥ 'A'.val ∧ c.val ≤ 'Z'.val) := by
      rintro ⟨least, -⟩
      have : 'A'.toNat ≤ c.toNat := UInt32.le_iff_toNat_le.mp least
      have : '9'.toNat < 'A'.toNat := by decide
      omega
    rw [Text.lowerChar, if_neg (other (by decide)), if_neg (other (by decide)), Char.toLower, dif_neg lower]
  · simp only [List.mem_cons, List.not_mem_nil, or_false] at mark
    rcases mark with rfl | rfl | rfl | rfl <;> decide

/-! ### Gaps -/

theorem mem_breaks_of_blank {s : List Char} (blank : Blank s) : ∀ c ∈ s, c ∈ ' ' :: breaks := by
  intro c hc
  rcases blank c hc with rfl | rfl | rfl | rfl <;> decide

theorem gap_of_blank {c : Char} {s : List Char} (stop : c ∈ breaks) (blank : Blank s) : Gap (c :: s) :=
  ⟨c, s, rfl, stop, mem_breaks_of_blank blank⟩

theorem Layout.gap_comma {l : Layout} (blank : l.Blank) (level : Nat) : Gap (l.comma level) := by
  obtain ⟨gap, gapBlank, comma⟩ := l.comma_eq blank level
  rw [comma]
  exact gap_of_blank (by decide) gapBlank

theorem Layout.gap_colon (l : Layout) : Gap ('"' :: l.colon) := by
  obtain ⟨gap, gapBlank, colon⟩ := l.colon_eq
  rw [colon]
  exact ⟨_, _, rfl, by decide, List.forall_mem_cons.mpr ⟨by decide, mem_breaks_of_blank gapBlank⟩⟩

theorem Layout.gap_closing {l : Layout} (blank : l.Blank) (level : Nat) {c : Char} (stop : c ∈ breaks) :
    Gap (l.lead level ++ [c]) := by
  have margin := mem_breaks_of_blank (l.blank_lead blank level)
  cases l with
  | compact | spaced => exact ⟨c, [], rfl, stop, List.forall_mem_nil _⟩
  | lines unit =>
    refine ⟨_, _, rfl, by decide, List.forall_mem_append.mpr ⟨(List.forall_mem_cons.mp margin).2, ?_⟩⟩
    exact List.forall_mem_singleton.mpr (List.mem_cons_of_mem _ stop)

/-! ### Values -/

section
variable {p : List Char} (phrase : IsPhrase p)
include phrase

theorem not_mentions_numeric {s : List Char} (numeric : ∀ c ∈ s, Numeric c) : ¬ Mentions p s := by
  have skipped : ∀ c ∈ s, Text.lowerChar c = [c] ∧ p.head? ≠ some c := by
    intro c hc
    refine ⟨lowerChar_numeric (numeric c hc), fun first => ?_⟩
    obtain ⟨-, digit, mark⟩ := phrase.head c first
    rcases numeric c hc with numeral | sign
    · rw [digit] at numeral
      cases numeral
    · exact mark sign
  rw [← s.append_nil, Text.mentions_skip phrase skipped]
  exact Text.not_mentions_nil phrase

theorem mentions_quote (text : String) : Mentions p (quote text) ↔ Mentions p (escaped text) := by
  have opening := Text.mentions_break phrase (c := '"') (by decide) [] (escaped text ++ ['"'])
  have closing := Text.mentions_break phrase (c := '"') (by decide) (escaped text) []
  have none := Text.not_mentions_nil phrase
  simp only [none, false_or, or_false, List.nil_append] at opening closing
  rw [quote, List.cons_append]
  exact opening.trans closing

theorem mentions_member (l : Layout) (name : String) (t : List Char) :
    Mentions p (quote name ++ l.colon ++ t) ↔ Mentions p (escaped name) ∨ Mentions p t := by
  have opening := Text.mentions_break phrase (c := '"') (by decide) [] (escaped name ++ ('"' :: l.colon ++ t))
  have between := Text.mentions_gap phrase l.gap_colon (escaped name) t
  have whole : quote name ++ l.colon ++ t = '"' :: (escaped name ++ ('"' :: l.colon ++ t)) := by
    simp [quote, escaped]
  rw [whole, ← between]
  simpa only [Text.not_mentions_nil phrase, false_or, List.nil_append] using opening

theorem mentions_enclose {l : Layout} (blank : l.Blank) (level : Nat) {opening closing : Char}
    (opens : opening ∈ breaks) (closes : closing ∈ breaks) (parts : List (List Char)) :
    Mentions p (enclose l level opening closing parts) ↔ ∃ part ∈ parts, Mentions p part := by
  have none := Text.not_mentions_nil phrase
  have before := gap_of_blank opens (l.blank_lead blank (level + 1))
  have whole : enclose l level opening closing parts = [] ++ ((opening :: l.lead (level + 1)) ++
      (List.intercalate (l.comma (level + 1)) parts ++ ((l.lead level ++ [closing]) ++ []))) := by
    simp [enclose]
  rw [whole, Text.mentions_gap phrase before, or_iff_right none,
    Text.mentions_gap phrase (l.gap_closing blank level closes), or_iff_left none,
    Text.mentions_intercalate phrase (l.gap_comma blank _)]

end

section
variable {p : List Char}

theorem mentionedIn_str {text : String} : MentionedIn p (.str text) ↔ Mentions p (escaped text) := by
  constructor
  · rintro ⟨_, ⟨⟩, mention⟩
    exact mention
  · intro mention
    exact ⟨text, .text, mention⟩

theorem mentionedIn_list {xs : List Value} : MentionedIn p (.list xs) ↔ ∃ x ∈ xs, MentionedIn p x := by
  constructor
  · rintro ⟨text, held, mention⟩
    cases held with
    | item member inside => exact ⟨_, member, text, inside, mention⟩
  · rintro ⟨x, member, text, inside, mention⟩
    exact ⟨text, .item member inside, mention⟩

theorem mentionedIn_object {fs : Table Value} :
    MentionedIn p (.object fs) ↔ ∃ e ∈ fs, Mentions p (escaped e.1) ∨ MentionedIn p e.2 := by
  constructor
  · rintro ⟨text, held, mention⟩
    cases held with
    | name member => exact ⟨_, member, .inl mention⟩
    | member member inside => exact ⟨_, member, .inr ⟨text, inside, mention⟩⟩
  · rintro ⟨e, member, mention | ⟨text, inside, mention⟩⟩
    · exact ⟨e.1, .name member, mention⟩
    · exact ⟨text, .member member inside, mention⟩

end

/-- Neither the layout nor the spelling of numbers makes or hides a phrase. -/
theorem mentions_print {p : List Char} (phrase : IsPhrase p) {l : Layout} (blank : l.Blank) {v : Value}
    (json : v.IsJson) (s : Spelling) (level : Nat) : Mentions p (print s l level v) ↔ MentionedIn p v := by
  have word {w : List Char} (short : (w.flatMap Text.lowerChar).length ≤ 5) : ¬ Mentions p w :=
    Text.not_mentions_short phrase short
  induction json generalizing level with
  | null =>
    rw [print]
    exact iff_of_false (word (by decide)) (by rintro ⟨_, ⟨⟩, -⟩)
  | bool b =>
    refine iff_of_false ?_ (by rintro ⟨_, ⟨⟩, -⟩)
    cases b <;> rw [print] <;> exact word (by decide)
  | int n =>
    rw [print]
    exact iff_of_false (not_mentions_numeric phrase (numeric_printInt n)) (by rintro ⟨_, ⟨⟩, -⟩)
  | float finite =>
    rw [print]
    exact iff_of_false (not_mentions_numeric phrase (numeric_write s finite)) (by rintro ⟨_, ⟨⟩, -⟩)
  | str text => rw [print, mentions_quote phrase, mentionedIn_str]
  | @list xs each ih =>
    rw [mentionedIn_list]
    cases xs with
    | nil =>
      rw [print]
      exact iff_of_false (word (by decide)) (by simp)
    | cons x xs =>
      rw [print, mentions_enclose phrase blank level (by decide) (by decide), printItems_eq_map, ← List.map_cons]
      simp only [List.mem_map, exists_exists_and_eq_and]
      exact exists_congr fun y => and_congr_right fun member => ih y member (level + 1)
  | @object fs each ih =>
    rw [mentionedIn_object]
    cases fs with
    | nil =>
      rw [print]
      exact iff_of_false (word (by decide)) (by simp)
    | cons e fs =>
      have parts : (quote e.1 ++ l.colon ++ print s l (level + 1) e.2) :: printMembers s l (level + 1) fs =
          (e :: fs).map fun e => quote e.1 ++ l.colon ++ print s l (level + 1) e.2 := by
        rw [printMembers_eq_map, List.map_cons]
      rw [print, parts, mentions_enclose phrase blank level (by decide) (by decide)]
      simp only [List.mem_map, exists_exists_and_eq_and]
      refine exists_congr fun d => and_congr_right fun member => ?_
      exact (mentions_member phrase l d.1 _).trans (or_congr_right (ih d member (level + 1)))

end Json
end ScreenPlan
