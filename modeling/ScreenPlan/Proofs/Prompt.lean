import ScreenPlan.Prompt
import ScreenPlan.Request
import ScreenPlan.Proofs.Json.Phrase
import ScreenPlan.Proofs.Plan.Payload

/-!
# Flagged prompts

A prompt is put together from fixed parts, a request and the text of a plan, with gaps between all of
them. It is flagged exactly if its request or its plan is, and a plan is flagged in all of its layouts
or in none.
-/

namespace ScreenPlan

namespace Request
open Text (Mentions IsPhrase Gap)

theorem isPhrase_signal : ∀ signal ∈ signals, IsPhrase signal.toList := by
  unfold signals
  simp only [List.forall_mem_cons, List.not_mem_nil, false_imp_iff, implies_true, and_true]
  refine ⟨?_, ?_, ?_, ?_, ?_, ?_, ?_, ?_⟩ <;>
    exact .of_all (by decide) (by decide) (by decide)

theorem isInjection_iff {text : String} :
    isInjection text = true ↔ ∃ signal ∈ signals, Mentions signal.toList text.toList := by
  simp only [isInjection, Text.lower, String.toList_ofList, List.any_eq_true, Text.occursIn_iff, Mentions]

/-- Texts with a gap between them are flagged one by one. -/
theorem isInjection_intercalate {gap : String} (between : Gap gap.toList) (texts : List String) :
    isInjection (String.intercalate gap texts) = texts.any isInjection := by
  rw [Bool.eq_iff_iff, isInjection_iff, List.any_eq_true, String.toList_intercalate]
  constructor
  · rintro ⟨signal, member, mention⟩
    rw [Text.mentions_intercalate (isPhrase_signal signal member) between] at mention
    obtain ⟨_, part, mention⟩ := mention
    obtain ⟨text, listed, rfl⟩ := List.mem_map.mp part
    exact ⟨text, listed, isInjection_iff.mpr ⟨signal, member, mention⟩⟩
  · rintro ⟨text, listed, flagged⟩
    obtain ⟨signal, member, mention⟩ := isInjection_iff.mp flagged
    refine ⟨signal, member, ?_⟩
    rw [Text.mentions_intercalate (isPhrase_signal signal member) between]
    exact ⟨_, List.mem_map_of_mem listed, mention⟩

/-- What to check of a fixed text, character by character. -/
theorem isInjection_eq_false {text : String} {s : List Char} (chars : text.toList = s)
    (quiet : ∀ signal ∈ signals, Text.occursIn signal.toList (s.flatMap Text.lowerChar) = false) :
    isInjection text = false := by
  rw [Bool.eq_false_iff, Ne, isInjection_iff]
  rintro ⟨signal, member, mention⟩
  have occurs := Text.occursIn_iff.mpr mention
  rw [chars, quiet signal member] at occurs
  cases occurs

end Request

namespace Prompt
open Request (isInjection isInjection_eq_false isInjection_intercalate)

/-! ### Fixed parts of a prompt -/

theorem gap_line : Text.Gap "\n".toList := ⟨_, _, rfl, by decide, List.forall_mem_nil _⟩

theorem gap_lines : Text.Gap "\n\n".toList :=
  ⟨_, _, rfl, by decide, List.forall_mem_singleton.mpr (by decide)⟩

theorem isInjection_part (title content : String) : isInjection (part title content) =
    (isInjection ("\n=== " ++ title ++ " ===") || isInjection content) := by
  have whole : part title content = String.intercalate "\n" ["\n=== " ++ title ++ " ===", content] := by
    rw [← String.toList_inj]
    simp [part]
  rw [whole, isInjection_intercalate gap_line]
  simp only [List.any_cons, List.any_nil, Bool.or_false]

theorem plannerRole_unflagged : isInjection plannerRole = false := by
  rw [plannerRole, isInjection_intercalate gap_line]
  simp only [List.any_cons, List.any_nil, Bool.or_false, Bool.or_eq_false_iff]
  refine ⟨?_, ?_, ?_, ?_⟩ <;> exact isInjection_eq_false String.toList_ofList (by decide +kernel)

theorem explainerRole_unflagged : isInjection explainerRole = false := by
  rw [explainerRole, isInjection_intercalate gap_line]
  simp only [List.any_cons, List.any_nil, Bool.or_false, Bool.or_eq_false_iff]
  refine ⟨?_, ?_, ?_⟩ <;> exact isInjection_eq_false String.toList_ofList (by decide +kernel)

theorem catalog_quiet : ∀ kind : Kind, ∀ line ∈ (kind.name ++ ":") :: kind.spec.allowed.map (propLine kind.spec) ++
      if kind = .table then ["- headers and rows are required"] else [],
    ∀ signal ∈ Request.signals, Text.occursIn signal.toList (line.toList.flatMap Text.lowerChar) = false := by
  intro kind
  cases kind <;> decide +kernel

theorem catalog_unflagged : isInjection catalog = false := by
  rw [catalog, isInjection_intercalate gap_lines, List.any_map, List.any_eq_false]
  intro kind _
  rw [Function.comp_apply, kindBlock, isInjection_intercalate gap_line, List.any_eq_true]
  rintro ⟨line, member, flagged⟩
  rw [isInjection_eq_false rfl (catalog_quiet kind line member)] at flagged
  cases flagged

theorem outputFormat_unflagged : isInjection outputFormat = false := by
  refine isInjection_eq_false rfl ?_
  simp only [outputFormat, String.toList_append, String.toList_intercalate]
  decide +kernel

/-! ### Prompts -/

theorem isInjection_requestSection (request : String) :
    isInjection (requestSection request) = isInjection request := by
  have heading : isInjection ("\n=== " ++ "REQUEST" ++ " ===") = false :=
    isInjection_eq_false rfl (by decide +kernel)
  rw [requestSection, isInjection_part, heading, Bool.false_or]

theorem isInjection_currentSection (current : Option String) :
    isInjection (currentSection current) = current.any isInjection := by
  cases current with
  | none => exact isInjection_eq_false rfl (by decide +kernel)
  | some text =>
    have heading : isInjection ("\n=== " ++ "CURRENT UI PLAN (modify instead of rewrite)" ++ " ===") = false :=
      isInjection_eq_false rfl (by decide +kernel)
    rw [currentSection, isInjection_part, heading, Bool.false_or, Option.any_some]

theorem isInjection_plannerText (request : String) (current : Option String) :
    isInjection (plannerText request current) = (current.any isInjection || isInjection request) := by
  have components : isInjection ("\n=== " ++ "COMPONENTS" ++ " ===") = false :=
    isInjection_eq_false rfl (by decide +kernel)
  have format : isInjection ("\n=== " ++ "OUTPUT FORMAT" ++ " ===") = false :=
    isInjection_eq_false rfl (by decide +kernel)
  rw [plannerText, isInjection_intercalate gap_line]
  simp only [List.any_cons, List.any_nil, isInjection_part, isInjection_currentSection,
    isInjection_requestSection, plannerRole_unflagged, catalog_unflagged, outputFormat_unflagged, components,
    format, Bool.false_or, Bool.or_false]

theorem isInjection_explainerText (request plan : String) :
    isInjection (explainerText request plan) = (isInjection request || isInjection plan) := by
  have heading : isInjection ("\n=== " ++ "UI PLAN" ++ " ===") = false :=
    isInjection_eq_false rfl (by decide +kernel)
  rw [explainerText, isInjection_intercalate gap_line]
  simp only [List.any_cons, List.any_nil, isInjection_part, isInjection_requestSection,
    explainerRole_unflagged, heading, Bool.false_or, Bool.or_false]

end Prompt

/-! ### Texts of a plan -/

namespace Plan
open Request (isInjection)
variable {p : Plan} {text : String}

/-- What the names and texts of a plan say decides, not how they are laid out. -/
theorem isInjection_print (p : Plan) {l : Json.Layout} (blank : l.Blank) (s : Spelling) :
    isInjection (String.ofList (Json.print s l 0 p.toValue)) = true ↔
      ∃ signal ∈ Request.signals, Json.MentionedIn signal.toList p.toValue := by
  rw [Request.isInjection_iff, String.toList_ofList]
  refine exists_congr fun signal => and_congr_right fun member => ?_
  exact Json.mentions_print (Request.isPhrase_signal signal member) blank p.isJson_toValue s 0

theorem isInjection_indented {compact indented : String} (short : p.compact = .ok compact)
    (long : p.indented = .ok indented) : isInjection indented = isInjection compact := by
  obtain ⟨s, rfl⟩ := Json.text_of_compact (written_of_writtenWith short)
  rw [text_of_indented long, Bool.eq_iff_iff, isInjection_print p blank_indented,
    isInjection_print p (l := .compact) trivial]

end Plan
end ScreenPlan
