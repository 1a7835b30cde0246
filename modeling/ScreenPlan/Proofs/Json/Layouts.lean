import Mathlib.Data.List.Chain
import ScreenPlan.Proofs.Json.Injective
import ScreenPlan.Proofs.Json.Phrase

/-!
# Layouts

Layouts differ in the blanks between the parts of a print. Without these, every layout is the compact one, so that a
print in any layout goes with one value only. A layout in lines leaves no line empty.
-/

namespace ScreenPlan.Json

/-! ### Blanks outside of texts -/

/-- Where a character stands: between texts, in one of them, or behind a backslash. -/
inductive Place where
  | between
  | inside
  | escaped

/-- A print without the blanks between its parts. -/
def squeezed : Place → List Char → List Char
  | _, [] => []
  | .between, c :: s =>
    if c = '"' then c :: squeezed .inside s
    else if c = ' ' ∨ c = '\t' ∨ c = '\n' ∨ c = '\r' then squeezed .between s
    else c :: squeezed .between s
  | .inside, c :: s => c :: squeezed (if c = '"' then .between else if c = '\\' then .escaped else .inside) s
  | .escaped, c :: s => c :: squeezed .inside s

def Bare (s : List Char) : Prop := ∀ c ∈ s, c ≠ '"' ∧ ¬ (c = ' ' ∨ c = '\t' ∨ c = '\n' ∨ c = '\r')

variable {s t : List Char}

theorem squeezed_blank (blank : Blank s) (t : List Char) : squeezed .between (s ++ t) = squeezed .between t := by
  induction s with
  | nil => rfl
  | cons c s ih =>
    have first := blank c List.mem_cons_self
    have quote : c ≠ '"' := by
      rintro rfl
      revert first
      decide
    rw [List.cons_append, squeezed, if_neg quote, if_pos first]
    exact ih fun d hd => blank d (List.mem_cons_of_mem _ hd)

theorem squeezed_bare (bare : Bare s) (t : List Char) : squeezed .between (s ++ t) = s ++ squeezed .between t := by
  induction s with
  | nil => rfl
  | cons c s ih =>
    obtain ⟨quote, blank⟩ := bare c List.mem_cons_self
    rw [List.cons_append, squeezed, if_neg quote, if_neg blank, ih fun d hd => bare d (List.mem_cons_of_mem _ hd),
      List.cons_append]

theorem squeezed_escapeChar (c : Char) (t : List Char) :
    squeezed .inside (escapeChar c ++ t) = escapeChar c ++ squeezed .inside t := by
  have hex {d : Nat} (small : d < 16) : Nat.digitChar d ≠ '"' ∧ Nat.digitChar d ≠ '\\' := by
    revert d
    decide
  unfold escapeChar
  split
  iterate 7 rfl
  next quote backslash _ _ _ _ _ =>
    split
    · obtain ⟨q, b⟩ := hex (d := c.toNat / 16) (by omega)
      obtain ⟨q', b'⟩ := hex (d := c.toNat % 16) (by omega)
      simp [squeezed, q, b, q', b']
    · simp only [List.singleton_append, squeezed, if_neg quote, if_neg backslash]

theorem squeezed_quote (text : String) (t : List Char) :
    squeezed .between (quote text ++ t) = quote text ++ squeezed .between t := by
  have inside (cs : List Char) : squeezed .inside (cs.flatMap escapeChar ++ '"' :: t) =
      cs.flatMap escapeChar ++ '"' :: squeezed .between t := by
    induction cs with
    | nil => rfl
    | cons c cs ih => rw [List.flatMap_cons, List.append_assoc, squeezed_escapeChar, ih, List.append_assoc]
  simp only [quote, List.cons_append, List.append_assoc, List.nil_append, squeezed, if_true, inside]

theorem bare_numeric (numeric : ∀ c ∈ s, Numeric c) : Bare s := by
  intro c hc
  rcases numeric c hc with digit | mark
  · have other {d : Char} (wrong : d.isDigit = false) : c ≠ d := by
      rintro rfl
      rw [wrong] at digit
      cases digit
    exact ⟨other (by decide), by
      rintro (same | same | same | same) <;> exact other (by decide) same⟩
  · simp only [List.mem_cons, List.not_mem_nil, or_false] at mark
    rcases mark with rfl | rfl | rfl | rfl <;> decide

theorem bare_of_all (all : (s.all fun c =>
    decide (c ≠ '"' ∧ ¬ (c = ' ' ∨ c = '\t' ∨ c = '\n' ∨ c = '\r'))) = true) : Bare s :=
  fun c hc => of_decide_eq_true (List.all_eq_true.mp all c hc)

/-! ### Every layout but for blanks -/

section
variable {α : Type} {f g : α → List Char} {l : Layout} (blank : l.Blank)
include blank

theorem squeezed_joined (level : Nat) {xs : List α}
    (each : ∀ x ∈ xs, ∀ t, squeezed .between (f x ++ t) = g x ++ squeezed .between t) (t : List Char) :
    squeezed .between (List.intercalate (l.comma level) (xs.map f) ++ t) =
      List.intercalate [','] (xs.map g) ++ squeezed .between t := by
  obtain ⟨gap, gapBlank, comma⟩ := l.comma_eq blank level
  induction xs with
  | nil => rfl
  | cons x xs ih =>
    have first := each x List.mem_cons_self
    cases xs with
    | nil => simpa using first t
    | cons y ys =>
      have others := ih fun z hz => each z (List.mem_cons_of_mem _ hz)
      have between (r : List Char) : squeezed .between (l.comma level ++ r) = ',' :: squeezed .between r := by
        rw [comma, List.cons_append, squeezed, if_neg (by decide), if_neg (by decide), squeezed_blank gapBlank]
      simp only [List.map_cons, List.intercalate_cons_cons, List.append_assoc] at others ⊢
      rw [first, between, others]
      rfl

theorem squeezed_enclose (level : Nat) {opening closing : Char} (bare : Bare [opening]) (bare' : Bare [closing])
    {xs : List α} (each : ∀ x ∈ xs, ∀ t, squeezed .between (f x ++ t) = g x ++ squeezed .between t) (t : List Char) :
    squeezed .between (enclose l level opening closing (xs.map f) ++ t) =
      opening :: (List.intercalate [','] (xs.map g) ++ closing :: squeezed .between t) := by
  have before := l.blank_lead blank (level + 1)
  have after := l.blank_lead blank level
  have whole : enclose l level opening closing (xs.map f) ++ t = [opening] ++ (l.lead (level + 1) ++
      (List.intercalate (l.comma (level + 1)) (xs.map f) ++ (l.lead level ++ ([closing] ++ t)))) := by
    simp [enclose]
  rw [whole, squeezed_bare bare, squeezed_blank before, squeezed_joined blank _ each, squeezed_blank after,
    squeezed_bare bare']
  rfl

/-- A print without its blanks is the compact one. -/
theorem squeezed_print {v : Value} (json : v.IsJson) (s : Spelling) (level : Nat) (t : List Char) :
    squeezed .between (print s l level v ++ t) = print s .compact level v ++ squeezed .between t := by
  induction json generalizing level t with
  | null =>
    rw [print, print]
    exact squeezed_bare (bare_of_all (by decide)) t
  | bool b => cases b <;> rw [print, print] <;> exact squeezed_bare (bare_of_all (by decide)) t
  | int n =>
    rw [print, print]
    exact squeezed_bare (bare_numeric (numeric_printInt n)) t
  | float finite =>
    rw [print, print]
    exact squeezed_bare (bare_numeric (numeric_write s finite)) t
  | str text =>
    rw [print, print]
    exact squeezed_quote text t
  | @list xs each ih =>
    rw [print_list]
    cases xs with
    | nil =>
      rw [print]
      exact squeezed_bare (bare_of_all (by decide)) t
    | cons x xs =>
      rw [print, printItems_eq_map, ← List.map_cons,
        squeezed_enclose blank level (bare_of_all (by decide)) (bare_of_all (by decide))
          (g := print s .compact (level + 1)) fun y hy => ih y hy (level + 1)]
      simp
  | @object fs each ih =>
    rw [print_object]
    cases fs with
    | nil =>
      rw [print]
      exact squeezed_bare (bare_of_all (by decide)) t
    | cons e fs =>
      obtain ⟨gap, gapBlank, colon⟩ := l.colon_eq
      have members : ∀ d ∈ e :: fs, ∀ t, squeezed .between (quote d.1 ++ l.colon ++ print s l (level + 1) d.2 ++ t) =
          member s (level + 1) d ++ squeezed .between t := by
        intro d hd t
        rw [List.append_assoc, List.append_assoc, squeezed_quote, colon, List.cons_append, squeezed,
          if_neg (by decide), if_neg (by decide), squeezed_blank gapBlank, ih d hd, member, List.append_assoc]
        rfl
      have parts : (quote e.1 ++ l.colon ++ print s l (level + 1) e.2) :: printMembers s l (level + 1) fs =
          (e :: fs).map fun d => quote d.1 ++ l.colon ++ print s l (level + 1) d.2 := by
        rw [printMembers_eq_map, List.map_cons]
      rw [print, parts, squeezed_enclose blank level (bare_of_all (by decide)) (bare_of_all (by decide)) members]
      simp

end

theorem Exact.isJson {v : Value} (plain : v.Exact) : v.IsJson := by
  induction plain with
  | null => exact .null
  | bool b => exact .bool b
  | int n => exact .int n
  | str text => exact .str text
  | list _ ih => exact .list ih
  | object _ _ ih => exact .object ih

/-- A print in any layout goes with one value only, whatever comes after it. -/
theorem layout_inj {v w : Value} (plain : v.Exact) (plain' : w.Exact) {s : Spelling} {l : Layout} (blank : l.Blank)
    {level : Nat} {r r' : List Char} (ends : Ends (squeezed .between r)) (ends' : Ends (squeezed .between r'))
    (same : print s l level v ++ r = print s l level w ++ r') : v = w ∧ r = r' := by
  have compact := congrArg (squeezed .between) same
  rw [squeezed_print blank (Exact.isJson plain), squeezed_print blank (Exact.isJson plain')] at compact
  obtain ⟨rfl, -⟩ := print_inj plain plain' ends ends' compact
  exact ⟨rfl, List.append_cancel_left same⟩

/-! ### Lines -/

/-- No line is empty: a line break is followed by something else. -/
def Dense (s : List Char) : Prop := List.IsChain (fun c d => c = '\n' → d ≠ '\n') s

/-- The text begins in the middle of a line. -/
def Starts (s : List Char) : Prop := ∃ c t, s = c :: t ∧ c ≠ '\n'

theorem Starts.append (starts : Starts s) (t : List Char) : Starts (s ++ t) := by
  obtain ⟨c, s, rfl, other⟩ := starts
  exact ⟨c, s ++ t, rfl, other⟩

theorem Starts.intercalate (starts : Starts s) (gap : List Char) (parts : List (List Char)) :
    Starts (List.intercalate gap (s :: parts)) := by
  cases parts with
  | nil => simpa using starts
  | cons part parts =>
    rw [List.intercalate_cons_cons, List.append_assoc]
    exact starts.append _

theorem dense_break (starts : Starts t) (dense : Dense t) : Dense ('\n' :: t) := by
  obtain ⟨c, t, rfl, other⟩ := starts
  exact List.isChain_cons_cons.mpr ⟨fun _ => other, dense⟩

theorem not_dense (front rest : List Char) : ¬ Dense (front ++ '\n' :: '\n' :: rest) := by
  intro dense
  exact (List.isChain_cons_cons.mp (List.isChain_append.mp dense).2.1).1 rfl rfl

/-- The last empty line of a text is in one place only. -/
theorem emptyLine_inj {front front' : List Char} (dense : Dense ('\n' :: s)) (dense' : Dense ('\n' :: t))
    (same : front ++ '\n' :: '\n' :: s = front' ++ '\n' :: '\n' :: t) : front = front' ∧ s = t := by
  -- If more than nothing were between the fronts, the empty line of one text would be in the dense rest of the other.
  have adjacent {between s t : List Char} (dense : Dense ('\n' :: s))
      (back : '\n' :: '\n' :: s = between ++ '\n' :: '\n' :: t) : between = [] := by
    cases between with
    | nil => rfl
    | cons c between =>
      rw [(List.cons.inj back).2] at dense
      exact (not_dense between t dense).elim
  have fronts : front = front' := by
    rcases List.append_eq_append_iff.mp same with ⟨between, split, back⟩ | ⟨between, split, back⟩
    · rw [split, adjacent dense back, List.append_nil]
    · rw [split, adjacent dense' back, List.append_nil]
  subst fronts
  have rest := List.append_cancel_left same
  exact ⟨rfl, (List.cons.inj (List.cons.inj rest).2).2⟩

theorem ne_break_of_printed {c : Char} (printed : 0x20 ≤ c.toNat) : c ≠ '\n' := by
  rintro rfl
  exact absurd printed (by decide)

theorem dense_printed (printed : Printed s) (dense : Dense t) : Dense (s ++ t) := by
  induction s with
  | nil => exact dense
  | cons c s ih =>
    obtain ⟨first, others⟩ := List.forall_mem_cons.mp printed
    exact List.isChain_cons.mpr ⟨fun d _ same => (ne_break_of_printed first same).elim, ih others⟩

theorem starts_print {v : Value} (plain : v.Exact) (s : Spelling) (l : Layout) (level : Nat) :
    Starts (print s l level v) := by
  cases plain with
  | null => exact ⟨_, _, by rw [print], by decide⟩
  | bool b => cases b <;> exact ⟨_, _, by rw [print], by decide⟩
  | int n =>
    rw [print]
    obtain ⟨c, t, first, -⟩ := head_printInt n
    exact ⟨c, t, first, ne_break_of_printed (printed_printInt n c (first ▸ List.mem_cons_self))⟩
  | str text => exact ⟨_, _, by rw [print, quote, List.cons_append], by decide⟩
  | @list xs each => cases xs <;> rw [print] <;> exact ⟨'[', _, rfl, by decide⟩
  | @object fs distinct each => cases fs <;> rw [print] <;> exact ⟨'{', _, rfl, by decide⟩

section
variable {α : Type} {f : α → List Char} {unit : String} (indent : Printed unit.toList)
include indent

theorem dense_lead (level : Nat) (starts : Starts t) (dense : Dense t) :
    Dense ((Layout.lines unit).lead level ++ t) := by
  have margin : Printed (List.replicate level unit.toList).flatten := by
    intro c hc
    obtain ⟨part, member, hc⟩ := List.mem_flatten.mp hc
    rw [List.eq_of_mem_replicate member] at hc
    exact indent c hc
  refine dense_break ?_ (dense_printed margin dense)
  cases form : (List.replicate level unit.toList).flatten with
  | nil => exact starts
  | cons c s =>
    rw [form] at margin
    exact ⟨c, _, rfl, ne_break_of_printed (margin c List.mem_cons_self)⟩

theorem dense_joined (level : Nat) {xs : List α} (opens : ∀ x ∈ xs, Starts (f x))
    (each : ∀ x ∈ xs, ∀ t, Dense t → Dense (f x ++ t)) (dense : Dense t) :
    Dense (List.intercalate ((Layout.lines unit).comma level) (xs.map f) ++ t) := by
  induction xs with
  | nil => exact dense
  | cons x xs ih =>
    cases xs with
    | nil => simpa using each x List.mem_cons_self t dense
    | cons y ys =>
      have others := ih (fun z hz => opens z (List.mem_cons_of_mem _ hz)) fun z hz => each z (List.mem_cons_of_mem _ hz)
      have next := ((opens y (List.mem_cons_of_mem _ List.mem_cons_self)).intercalate
        ((Layout.lines unit).comma level) (ys.map f)).append t
      rw [List.map_cons, List.map_cons, List.intercalate_cons_cons, List.append_assoc, List.append_assoc]
      apply each x List.mem_cons_self
      exact dense_printed (s := [',']) (printed_of_all (by decide)) (dense_lead indent level next others)

theorem dense_enclose (level : Nat) {opening closing : Char} (printed : 0x20 ≤ opening.toNat)
    (printed' : 0x20 ≤ closing.toNat) {x : α} {xs : List α} (opens : ∀ y ∈ x :: xs, Starts (f y))
    (each : ∀ y ∈ x :: xs, ∀ t, Dense t → Dense (f y ++ t)) (dense : Dense t) :
    Dense (enclose (.lines unit) level opening closing ((x :: xs).map f) ++ t) := by
  have after : Dense ((Layout.lines unit).lead level ++ closing :: t) :=
    dense_lead indent level ⟨closing, t, rfl, ne_break_of_printed printed'⟩
      (dense_printed (s := [closing]) (List.forall_mem_singleton.mpr printed') dense)
  have first := ((opens x List.mem_cons_self).intercalate ((Layout.lines unit).comma (level + 1)) (xs.map f)).append
    ((Layout.lines unit).lead level ++ closing :: t)
  have inside := dense_lead indent (level + 1) first (dense_joined indent (level + 1) opens each after)
  have whole := dense_printed (s := [opening]) (List.forall_mem_singleton.mpr printed) inside
  simpa [enclose] using whole

/-- No line of a print is empty, and none comes about where it ends. -/
theorem dense_print {v : Value} (plain : v.Exact) (s : Spelling) (level : Nat) (dense : Dense t) :
    Dense (print s (.lines unit) level v ++ t) := by
  induction plain generalizing level t with
  | null =>
    rw [print]
    exact dense_printed (printed_of_all (by decide)) dense
  | bool b => cases b <;> rw [print] <;> exact dense_printed (printed_of_all (by decide)) dense
  | int n =>
    rw [print]
    exact dense_printed (printed_printInt n) dense
  | str text =>
    rw [print]
    exact dense_printed (printed_quote text) dense
  | @list xs each ih =>
    cases xs with
    | nil =>
      rw [print]
      exact dense_printed (printed_of_all (by decide)) dense
    | cons x xs =>
      rw [print, printItems_eq_map, ← List.map_cons]
      exact dense_enclose indent level (by decide) (by decide) (fun y hy => starts_print (each y hy) s _ _)
        (fun y hy t dense => ih y hy (level + 1) dense) dense
  | @object fs distinct each ih =>
    cases fs with
    | nil =>
      rw [print]
      exact dense_printed (printed_of_all (by decide)) dense
    | cons e fs =>
      have parts : (quote e.1 ++ (Layout.lines unit).colon ++ print s (.lines unit) (level + 1) e.2) ::
          printMembers s (.lines unit) (level + 1) fs =
          (e :: fs).map fun d => quote d.1 ++ (Layout.lines unit).colon ++ print s (.lines unit) (level + 1) d.2 := by
        rw [printMembers_eq_map, List.map_cons]
      rw [print, parts]
      refine dense_enclose indent level (by decide) (by decide) (fun d _ => ?_) (fun d hd t dense => ?_) dense
      · exact ⟨'"', _, rfl, by decide⟩
      · rw [List.append_assoc, List.append_assoc]
        refine dense_printed (printed_quote _) (dense_printed (s := [':', ' ']) (printed_of_all (by decide)) ?_)
        exact ih d hd (level + 1) dense

end

end ScreenPlan.Json
