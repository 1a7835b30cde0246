import Mathlib.Data.List.Infix
import ScreenPlan.Text.Phrase

/-!
# Phrases across gaps

A phrase that holds no quote, no bracket, no comma, no colon and no end of a line stands on one side
of each of them. So whether a text that is put together from parts mentions such a phrase depends on the
parts alone, as long as there is a gap between them.
-/

namespace ScreenPlan.Text

/-- The phrase stands in the text, whatever the case of the text. -/
def Mentions (phrase s : List Char) : Prop := phrase <:+: s.flatMap lowerChar

/-- Characters that no phrase holds. -/
def breaks : List Char := ['"', '{', '}', '[', ']', ',', ':', '\n', '\t', '\r']

/-- A phrase is longer than every word of JSON and begins with a letter that no number is written
with. -/
structure IsPhrase (phrase : List Char) : Prop where
  unbroken : ∀ c ∈ phrase, c ∉ breaks
  head : ∀ c ∈ phrase.head?, c ≠ ' ' ∧ c.isDigit = false ∧ c ∉ ['+', '-', '.', 'e']
  long : 5 < phrase.length

/-- The three rules, one character after the other. -/
theorem IsPhrase.of_all {phrase : List Char} (unbroken : (phrase.all fun c => decide (c ∉ breaks)) = true)
    (head : (phrase.head?.all fun c => c ≠ ' ' ∧ c.isDigit = false ∧ c ∉ ['+', '-', '.', 'e']) = true)
    (long : 5 < phrase.length) : IsPhrase phrase where
  unbroken c hc := of_decide_eq_true (List.all_eq_true.mp unbroken c hc)
  head c hc := by
    rw [Option.mem_def.mp hc] at head
    exact of_decide_eq_true head
  long := long

/-- What stands between two parts: a break, and then breaks and spaces. -/
def Gap (s : List Char) : Prop := ∃ c t, s = c :: t ∧ c ∈ breaks ∧ ∀ d ∈ t, d ∈ ' ' :: breaks

theorem lowerChar_break : ∀ c ∈ ' ' :: breaks, lowerChar c = [c] := by
  simp only [breaks, List.forall_mem_cons, List.not_mem_nil, false_imp_iff, implies_true, and_true]
  decide

/-- A list that begins before a character which it does not hold ends before it. -/
theorem prefix_append_cons {p a b : List Char} {c : Char} (outside : c ∉ p) :
    p <+: a ++ c :: b ↔ p <+: a := by
  refine ⟨fun begins => ?_, fun begins => begins.trans (List.prefix_append a _)⟩
  rcases List.prefix_or_prefix_of_prefix begins (List.prefix_append a _) with inside | ⟨q, rfl⟩
  · exact inside
  · cases q with
    | nil => rw [List.append_nil]
    | cons d q =>
      have both := (List.prefix_append_right_inj a).mp begins
      have : d = c := (List.cons_prefix_cons.mp both).1
      exact (outside (this ▸ List.mem_append_right a List.mem_cons_self)).elim

theorem infix_append_cons {p a b : List Char} {c : Char} (outside : c ∉ p) :
    p <:+: a ++ c :: b ↔ p <:+: a ∨ p <:+: b := by
  induction a with
  | nil =>
    have begins := prefix_append_cons (a := []) (b := b) outside
    rw [List.nil_append] at begins ⊢
    rw [List.infix_cons_iff, begins, List.infix_nil, List.prefix_nil]
  | cons d a ih =>
    have begins := prefix_append_cons (a := d :: a) (b := b) outside
    rw [List.cons_append] at begins ⊢
    rw [List.infix_cons_iff, List.infix_cons_iff, begins, ih, or_assoc]

section
variable {p : List Char} (phrase : IsPhrase p)
include phrase

theorem IsPhrase.ne_nil : p ≠ [] := by
  rintro rfl
  exact absurd phrase.long (by decide)

theorem not_mentions_nil : ¬ Mentions p [] := fun mention => phrase.ne_nil (List.infix_nil.mp mention)

theorem not_mentions_short {s : List Char} (short : (s.flatMap lowerChar).length ≤ 5) : ¬ Mentions p s := by
  intro mention
  have := mention.length_le
  have := phrase.long
  omega

/-- No occurrence begins before the first character of the phrase. -/
theorem mentions_skip {s : List Char} (skipped : ∀ c ∈ s, lowerChar c = [c] ∧ p.head? ≠ some c) (t : List Char) :
    Mentions p (s ++ t) ↔ Mentions p t := by
  induction s with
  | nil => rfl
  | cons c s ih =>
    obtain ⟨same, other⟩ := skipped c List.mem_cons_self
    rw [← ih fun d hd => skipped d (List.mem_cons_of_mem _ hd), Mentions, List.cons_append, List.flatMap_cons, same,
      List.singleton_append, List.infix_cons_iff, or_iff_right, Mentions]
    intro begins
    cases p with
    | nil => exact phrase.ne_nil rfl
    | cons d p => exact other (congrArg some (List.cons_prefix_cons.mp begins).1)

theorem head?_ne_break {c : Char} (stop : c ∈ ' ' :: breaks) : p.head? ≠ some c := by
  intro first
  rcases List.mem_cons.mp stop with rfl | stop
  · exact (phrase.head _ first).1 rfl
  · exact phrase.unbroken c (List.mem_of_mem_head? first) stop

theorem mentions_break {c : Char} (stop : c ∈ breaks) (s t : List Char) :
    Mentions p (s ++ c :: t) ↔ Mentions p s ∨ Mentions p t := by
  have same := lowerChar_break c (List.mem_cons_of_mem _ stop)
  rw [Mentions, List.flatMap_append, List.flatMap_cons, same, List.singleton_append]
  exact infix_append_cons (fun inside => phrase.unbroken c inside stop)

theorem mentions_gap {gap : List Char} (between : Gap gap) (s t : List Char) :
    Mentions p (s ++ (gap ++ t)) ↔ Mentions p s ∨ Mentions p t := by
  obtain ⟨c, r, rfl, stop, rest⟩ := between
  have skipped : ∀ d ∈ r, lowerChar d = [d] ∧ p.head? ≠ some d :=
    fun d hd => ⟨lowerChar_break d (rest d hd), head?_ne_break phrase (rest d hd)⟩
  rw [List.cons_append, mentions_break phrase stop, mentions_skip phrase skipped]

theorem mentions_intercalate {gap : List Char} (between : Gap gap) (parts : List (List Char)) :
    Mentions p (List.intercalate gap parts) ↔ ∃ part ∈ parts, Mentions p part := by
  induction parts with
  | nil => simpa using not_mentions_nil phrase
  | cons part parts ih =>
    cases parts with
    | nil => simp
    | cons next parts =>
      rw [List.intercalate_cons_cons, List.append_assoc, mentions_gap phrase between, ih]
      simp

end
end ScreenPlan.Text
