import ScreenPlan.Text.Blank

/-!
# Trimmed text

Trimming takes away what it should and nothing else: a text without characters of the class at its
ends stays as it is, and every text is such a text once it is trimmed.
-/

namespace ScreenPlan.Text

variable {α : Type} {p : α → Bool} {s : List α}

/-- Neither end of the text is of the class. -/
def Trimmed (p : α → Bool) (s : List α) : Prop :=
  (∀ c ∈ s.head?, p c = false) ∧ ∀ c ∈ s.getLast?, p c = false

theorem dropWhile_eq_self (head : ∀ c ∈ s.head?, p c = false) : s.dropWhile p = s := by
  cases s with
  | nil => rfl
  | cons c s => simp [head c rfl]

theorem head?_dropWhile_false : ∀ c ∈ (s.dropWhile p).head?, p c = false := by
  intro c hc
  have none := List.head?_dropWhile_not p s
  rw [Option.mem_def.mp hc] at none
  exact none

theorem trimWhere_of_trimmed (trimmed : Trimmed p s) : trimWhere p s = s := by
  rw [trimWhere, dropWhile_eq_self trimmed.1, dropWhile_eq_self (List.head?_reverse ▸ trimmed.2),
    List.reverse_reverse]

/-- What is dropped from the end leaves the beginning alone. -/
theorem trimmed_trimWhere (p : α → Bool) (s : List α) : Trimmed p (trimWhere p s) := by
  constructor
  · intro c hc
    obtain ⟨front, same⟩ := List.dropWhile_suffix p (l := (s.dropWhile p).reverse)
    have whole : s.dropWhile p = trimWhere p s ++ front.reverse := by
      rw [trimWhere, ← List.reverse_append, same, List.reverse_reverse]
    refine head?_dropWhile_false (s := s) c ?_
    rw [whole, Option.mem_def, List.head?_append, Option.mem_def.mp hc]
    rfl
  · intro c hc
    rw [trimWhere, List.getLast?_reverse] at hc
    exact head?_dropWhile_false c hc

theorem trimWhere_trimWhere (p : α → Bool) (s : List α) :
    trimWhere p (trimWhere p s) = trimWhere p s :=
  trimWhere_of_trimmed (trimmed_trimWhere p s)

theorem dropWhile_append {t : List α} (head : ∀ c ∈ t.head?, p c = false) (front : List α) :
    (front ++ t).dropWhile p = front.dropWhile p ++ t := by
  induction front with
  | nil => exact dropWhile_eq_self head
  | cons c front ih =>
    rw [List.cons_append, List.dropWhile_cons, List.dropWhile_cons]
    split
    · exact ih
    · rfl

/-- Trimming goes no further than a part that is trimmed itself. -/
theorem trimWhere_append {t : List α} (trimmed : Trimmed p t) (some : t ≠ []) (front back : List α) :
    trimWhere p (front ++ t ++ back) = front.dropWhile p ++ t ++ (back.reverse.dropWhile p).reverse := by
  have first {u : List α} (some : u ≠ []) (head : ∀ c ∈ u.head?, p c = false) (rest : List α) :
      ∀ c ∈ (u ++ rest).head?, p c = false := by
    cases u with
    | nil => exact (some rfl).elim
    | cons d u => exact head
  have head := first some trimmed.1 back
  have last := first (List.reverse_ne_nil_iff.mpr some) (List.head?_reverse ▸ trimmed.2) (front.dropWhile p).reverse
  rw [trimWhere, List.append_assoc, dropWhile_append head, ← List.append_assoc, List.reverse_append,
    List.reverse_append, dropWhile_append last, List.reverse_append, List.reverse_append, List.reverse_reverse,
    List.reverse_reverse]

theorem trimWhere_infix (p : α → Bool) (s : List α) : trimWhere p s <:+: s := by
  refine List.IsInfix.trans (List.IsPrefix.isInfix ?_) (List.dropWhile_suffix p).isInfix
  rw [trimWhere, ← List.reverse_suffix, List.reverse_reverse]
  exact List.dropWhile_suffix p

theorem trim_trim (text : String) : trim (trim text) = trim text := by
  rw [trim, trim, String.toList_ofList, trimChars, trimChars, trimWhere_trimWhere]

end ScreenPlan.Text
