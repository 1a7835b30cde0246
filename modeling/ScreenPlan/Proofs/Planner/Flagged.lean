import ScreenPlan.Proofs.Json.Escaped
import ScreenPlan.Proofs.Planner.Screening

/-!
# Flagged plans

The text of a plan is searched for the phrases of which no request may hold any. What it says in its own words decides:
the layout, the names of props, and the names and texts inside of their values. A phrase counts in its plain form, and
in the few forms that an escape turns into it.
-/

namespace ScreenPlan

/-! ### What a plan says -/

/-- The text is the name of a prop of the node or of one below it, or stands in a value of a prop. -/
inductive Node.Holds (text : String) : Node → Prop
  | name {kind : Kind} {props : Table Value} {children : List Node} {v : Value} (member : (text, v) ∈ props) :
      Holds text ⟨kind, props, children⟩
  | value {kind : Kind} {props : Table Value} {children : List Node} {e : String × Value} (member : e ∈ props)
      (inside : e.2.settled.Holds text) : Holds text ⟨kind, props, children⟩
  | child {kind : Kind} {props : Table Value} {children : List Node} {n : Node} (member : n ∈ children)
      (inside : n.Holds text) : Holds text ⟨kind, props, children⟩

/-- The text is one that the plan brings along, apart from the names that all plans have in common. -/
def Plan.Holds (text : String) (p : Plan) : Prop := text = p.layout ∨ ∃ n ∈ p.components, n.Holds text

/-- Names that stand in every payload, and those of the kinds. -/
def commonNames : List String := ["layout", "components", "type", "props", "children"] ++ Kind.all.map Kind.name

section
open Json (MentionedIn escaped mentionedIn_object mentionedIn_list mentionedIn_str)
open Text (Mentions)

variable {phrase : List Char}

theorem mentionedIn_settledMembers (props : Table Value) : MentionedIn phrase (.object (Value.settledMembers props)) ↔
    ∃ e ∈ props, Mentions phrase (escaped e.1) ∨ MentionedIn phrase e.2.settled := by
  rw [mentionedIn_object, Value.settledMembers_eq_map]
  simp only [List.mem_map, exists_exists_and_eq_and]

/-- The phrase stands in none of the names that all plans have in common. -/
def Uncommon (phrase : List Char) : Prop := ∀ name ∈ commonNames, ¬ Mentions phrase (escaped name)

mutual
theorem Node.mentionedIn_toValue (uncommon : Uncommon phrase) : ∀ n : Node,
    MentionedIn phrase n.toValue ↔ ∃ text, n.Holds text ∧ Mentions phrase (escaped text)
  | ⟨kind, props, children⟩ => by
    have type := uncommon "type" (by decide)
    have given := uncommon "props" (by decide)
    have listed := uncommon "children" (by decide)
    have name : ¬ Mentions phrase (escaped kind.name) :=
      uncommon kind.name (List.mem_append_right _ (List.mem_map_of_mem kind.mem_all))
    rw [toValue, mentionedIn_object]
    simp only [List.exists_mem_cons_iff, List.not_mem_nil, false_and, exists_false, or_false, mentionedIn_str, type,
      given, listed, name, false_or, mentionedIn_settledMembers, mentionedIn_list,
      mentionedIn_toValues uncommon children]
    constructor
    · rintro (⟨e, member, mention | ⟨text, inside, mention⟩⟩ | ⟨n, member, text, inside, mention⟩)
      · exact ⟨e.1, .name member, mention⟩
      · exact ⟨text, .value member inside, mention⟩
      · exact ⟨text, .child member inside, mention⟩
    · rintro ⟨text, said, mention⟩
      cases said with
      | name member => exact .inl ⟨_, member, .inl mention⟩
      | value member inside => exact .inl ⟨_, member, .inr ⟨text, inside, mention⟩⟩
      | child member inside => exact .inr ⟨_, member, text, inside, mention⟩

theorem Node.mentionedIn_toValues (uncommon : Uncommon phrase) : ∀ ns : List Node,
    (∃ v ∈ toValues ns, MentionedIn phrase v) ↔ ∃ n ∈ ns, ∃ text, n.Holds text ∧ Mentions phrase (escaped text)
  | [] => by simp [toValues]
  | n :: ns => by
    rw [toValues, List.exists_mem_cons_iff, List.exists_mem_cons_iff, mentionedIn_toValue uncommon n,
      mentionedIn_toValues uncommon ns]
end

theorem Plan.mentionedIn_toValue (uncommon : Uncommon phrase) (p : Plan) :
    MentionedIn phrase p.toValue ↔ ∃ text, p.Holds text ∧ Mentions phrase (escaped text) := by
  have layout := uncommon "layout" (by decide)
  have components := uncommon "components" (by decide)
  rw [toValue, mentionedIn_object]
  simp only [List.exists_mem_cons_iff, List.not_mem_nil, false_and, exists_false, or_false, mentionedIn_str, layout,
    components, false_or, mentionedIn_list, Node.mentionedIn_toValues uncommon]
  constructor
  · rintro (mention | ⟨n, member, text, inside, mention⟩)
    · exact ⟨p.layout, .inl rfl, mention⟩
    · exact ⟨text, .inr ⟨n, member, inside⟩, mention⟩
  · rintro ⟨text, rfl | ⟨n, member, inside⟩, mention⟩
    · exact .inl mention
    · exact .inr ⟨n, member, text, inside, mention⟩

end

/-! ### Phrases and their disguises -/

namespace Request
open Json (Spells Worded escaped)
open Text (Mentions)

/-- Forms of the signals that begin with a control character. Its escape ends in the letter that it stands for. -/
def disguises : List String :=
  ["\x08ypass", "\x0bypass", "\x1bypass", "\x1act as", "\x1disregard previous", "\x1developer message"]

theorem worded_signal : ∀ signal ∈ signals, Worded signal.toList := by
  have words : (signals.all fun signal => signal.toList.all fun c => c.isLower || c = ' ') = true := by decide +kernel
  intro signal member c among
  have letter := List.all_eq_true.mp (List.all_eq_true.mp words signal member) c among
  simpa using letter

theorem disguised_signal : ∀ n < 0x20, ∀ signal ∈ signals,
    (Json.escapeChar (Char.ofNat n)).getLast? = signal.toList.head? →
      String.ofList (Char.ofNat n :: signal.toList.tail) ∈ disguises := by
  decide +kernel

theorem signal_of_disguise : ∀ disguise ∈ disguises, ∃ signal ∈ signals,
    disguise.toList.tail = signal.toList.tail ∧
      ∃ k ∈ disguise.toList.head?, k.toNat < 0x20 ∧ (Json.escapeChar k).getLast? = signal.toList.head? := by
  have forms : ∀ disguise ∈ disguises, ∃ signal ∈ signals, disguise.toList.tail = signal.toList.tail ∧
      (disguise.toList.head?.any fun k =>
        decide (k.toNat < 0x20 ∧ (Json.escapeChar k).getLast? = signal.toList.head?)) = true := by
    decide +kernel
  intro disguise listed
  obtain ⟨signal, member, others, spelled⟩ := forms disguise listed
  obtain ⟨k, first, spelled⟩ := (Option.any_eq_true _ _).mp spelled
  exact ⟨signal, member, others, k, first, of_decide_eq_true spelled⟩

/-- What is flagged in an escaped text are the signals and their disguises in the text itself. -/
theorem mentions_signal_escaped (text : String) : (∃ signal ∈ signals, Mentions signal.toList (escaped text)) ↔
    ∃ phrase ∈ signals ++ disguises, Mentions phrase.toList text.toList := by
  have split {signal : String} (member : signal ∈ signals) : ∃ h t, signal.toList = h :: t ∧
      (Mentions signal.toList (escaped text) ↔
        Mentions signal.toList text.toList ∨ ∃ k, Spells k h ∧ Mentions (k :: t) text.toList) := by
    have worded := worded_signal signal member
    have long := (isPhrase_signal signal member).long
    cases chars : signal.toList with
    | nil =>
      rw [chars] at long
      cases long
    | cons h t =>
      rw [chars] at worded long
      rw [List.length_cons] at long
      exact ⟨h, t, rfl, Json.mentions_escaped worded (by omega) text⟩
  constructor
  · rintro ⟨signal, member, mention⟩
    obtain ⟨h, t, chars, stands⟩ := split member
    rcases stands.mp mention with plain | ⟨k, ⟨control, final⟩, spelled⟩
    · exact ⟨signal, List.mem_append_left _ member, plain⟩
    · have listed := disguised_signal k.toNat control signal member
      rw [Char.ofNat_toNat, chars] at listed
      refine ⟨_, List.mem_append_right _ (listed final), ?_⟩
      rw [String.toList_ofList]
      exact spelled
  · rintro ⟨phrase, member, mention⟩
    rcases List.mem_append.mp member with plain | disguised
    · obtain ⟨h, t, chars, stands⟩ := split plain
      exact ⟨phrase, plain, stands.mpr (.inl mention)⟩
    · obtain ⟨signal, plain, others, k, first, control, final⟩ := signal_of_disguise phrase disguised
      obtain ⟨h, t, chars, stands⟩ := split plain
      rw [chars] at others final
      have whole : phrase.toList = k :: t := by
        rw [List.eq_cons_of_mem_head? first, others]
        rfl
      rw [whole] at mention
      exact ⟨signal, plain, stands.mpr (.inr ⟨k, ⟨control, final⟩, mention⟩)⟩

theorem uncommon_signal : ∀ signal ∈ signals, Uncommon signal.toList := by
  have quiet : (signals.all fun signal => commonNames.all fun name =>
      !Text.occursIn signal.toList ((escaped name).flatMap Text.lowerChar)) = true := by
    decide +kernel
  intro signal member name among mention
  have silent := List.all_eq_true.mp (List.all_eq_true.mp quiet signal member) name among
  rw [Text.occursIn_iff.mpr mention] at silent
  cases silent

end Request

/-- A text of the plan contains one of the phrases in whatever case. -/
def Plan.Flagged (phrases : List String) (p : Plan) : Prop :=
  ∃ said, p.Holds said ∧ ∃ phrase ∈ phrases, Text.Mentions phrase.toList said.toList

open Request (signals disguises) in
theorem Plan.isInjection_compact {p : Plan} {text : String} (written : p.compact = .ok text) :
    Request.isInjection text = true ↔ p.Flagged (signals ++ disguises) := by
  obtain ⟨s, rfl⟩ := Json.text_of_compact (written_of_writtenWith written)
  rw [isInjection_print p (l := .compact) trivial]
  constructor
  · rintro ⟨signal, member, mention⟩
    obtain ⟨said, held, mention⟩ := (mentionedIn_toValue (Request.uncommon_signal signal member) p).mp mention
    exact ⟨said, held, (Request.mentions_signal_escaped said).mp ⟨signal, member, mention⟩⟩
  · rintro ⟨said, held, mention⟩
    obtain ⟨signal, member, mention⟩ := (Request.mentions_signal_escaped said).mpr mention
    exact ⟨signal, member, (mentionedIn_toValue (Request.uncommon_signal signal member) p).mpr ⟨said, held, mention⟩⟩

/-! ### Calls -/

namespace Planner
open Request (signals disguises)

variable {settings : Settings} {request : Value} {previous : Option Plan} {reason : String}

/-- Requests are rejected by the screening alone. -/
theorem plan_rejected_iff (service : Service) (s : Session) :
    (plan settings service request previous s).1 = .error (.requestRejected reason) ↔
      (screen settings request previous).1 = .error (.requestRejected reason) := by
  constructor
  · intro rejected
    obtain ⟨ending, t, course, planned⟩ := plan_course settings service request previous s
    rw [planned] at rejected
    cases course with
    | screenedOut screened =>
      obtain rfl := Except.error.inj rejected
      exact screened
    | keyless | found => cases rejected
    | missed _ _ _ _ consulted | storeless _ _ consulted => cases consulted <;> cases rejected
  · intro screened
    obtain ⟨s', planned, -⟩ := plan_of_screened service s screened
    rw [planned]

theorem render_rejected_iff (service : Service) (s : Session) :
    (render settings service request previous s).1 = .error (.requestRejected reason) ↔
      (screen settings request previous).1 = .error (.requestRejected reason) := by
  rw [← plan_rejected_iff service s]
  unfold render
  rcases plan settings service request previous s with ⟨failure | ⟨_ | p, errors⟩, s'⟩
  · exact ⟨fun same => congrArg _ (Except.error.inj same), fun same => congrArg _ (Except.error.inj same)⟩
  · exact iff_of_false nofun nofun
  · refine iff_of_false ?_ nofun
    dsimp only
    cases Markup.generatePlan settings.importPath p <;> exact nofun

theorem explain_rejected_iff (service : Service) (s : Session) :
    (explain settings service request previous s).1 = .error (.requestRejected reason) ↔
      (screen settings request previous).1 = .error (.requestRejected reason) := by
  rcases whole : screen settings request previous with ⟨failure | message, events⟩
  · rw [explain, whole]
  · refine iff_of_false ?_ (by simp)
    rw [explain, whole]
    dsimp only
    cases previous with
    | none => simp
    | some p =>
      dsimp only
      cases Prompt.explainer message p with
      | error e => simp
      | ok prompt =>
        simp only [Session.ask]
        cases (service prompt).reply with
        | error raised => simp
        | ok v => cases v <;> simp

def flaggedPlan : Failure := .requestRejected "Unsafe prompt detected in current plan"

theorem screen_flagged_iff {message text : String} {p : Plan}
    (fit : Request.readMessage (some (.ofNat settings.maxRequestLength.val)) request = .ok message)
    (serialisable : p.compact = .ok text) :
    (screen settings request (some p)).1 = .error flaggedPlan ↔ p.Flagged (signals ++ disguises) := by
  rw [← Plan.isInjection_compact serialisable, screen, fit, Option.map_some, serialisable]
  dsimp only
  split
  · next flagged => exact iff_of_true rfl flagged
  · next unflagged => exact iff_of_false nofun unflagged

/-- With a request that is fit by itself, a call is rejected for its plan exactly if a text of the plan contains a
phrase, or a disguise that an escape turns into one. -/
theorem previous_screened_exactly {message text : String} {p : Plan}
    (fit : Request.readMessage (some (.ofNat settings.maxRequestLength.val)) request = .ok message)
    (serialisable : p.compact = .ok text) (service : Service) (s : Session) :
    ((plan settings service request (some p) s).1 = .error flaggedPlan ↔ p.Flagged (signals ++ disguises)) ∧
      ((render settings service request (some p) s).1 = .error flaggedPlan ↔ p.Flagged (signals ++ disguises)) ∧
      ((explain settings service request (some p) s).1 = .error flaggedPlan ↔ p.Flagged (signals ++ disguises)) := by
  have screened := screen_flagged_iff fit serialisable
  exact ⟨(plan_rejected_iff service s).trans screened, (render_rejected_iff service s).trans screened,
    (explain_rejected_iff service s).trans screened⟩

theorem fit_card : Request.readMessage (some (.ofNat ({} : Settings).maxRequestLength.val)) (.str "a card") =
    .ok "a card" := by
  with_unfolding_all rfl

/-- A phrase is a key in a row of a table in a card. -/
def hidingPlan : Plan :=
  ⟨"grid", [⟨.card, [], [⟨.table, [("rows", .list [.list [.object [("Act As", .int 1)]]])], []⟩]⟩]⟩

theorem writable_hidingPlan : hidingPlan.Writable := ⟨_, rfl⟩

theorem hidingPlan_holds : hidingPlan.Holds "Act As" := by
  refine .inr ⟨_, List.mem_singleton_self _, .child (List.mem_singleton_self _) (.value (List.mem_singleton_self _) ?_)⟩
  simp only [Value.settled, Value.settledItems, Value.settledMembers]
  exact .item (List.mem_singleton_self _) (.item (List.mem_singleton_self _) (.name (List.mem_singleton_self _)))

theorem previous_screened_exactly_hiding : ∃ text,
    Request.readMessage (some (.ofNat ({} : Settings).maxRequestLength.val)) (.str "a card") = .ok "a card" ∧
      hidingPlan.compact = .ok text ∧
      (plan {} cardService (.str "a card") (some hidingPlan) cardSession).1 = .error flaggedPlan := by
  obtain ⟨text, serialisable⟩ := writable_hidingPlan
  obtain ⟨planned, -, -⟩ := previous_screened_exactly fit_card serialisable cardService cardSession
  refine ⟨text, fit_card, serialisable, planned.mpr ⟨_, hidingPlan_holds, "act as", by decide, ?_⟩⟩
  exact Text.occursIn_iff.mp (by decide +kernel)

/-- The label is not a phrase, and its escape reads as one. -/
def disguisedPlan : Plan := ⟨"grid", [⟨.button, [("label", .str "\x08ypass")], []⟩]⟩

theorem writable_disguisedPlan : disguisedPlan.Writable := ⟨_, rfl⟩

theorem disguisedPlan_flagged : disguisedPlan.Flagged (signals ++ disguises) := by
  refine ⟨"\x08ypass", .inr ⟨_, List.mem_singleton_self _, .value (List.mem_singleton_self _) ?_⟩, "\x08ypass",
    by decide, ?_⟩
  · simp only [Value.settled]
    exact .text
  · exact Text.occursIn_iff.mp (by decide +kernel)

theorem disguisedPlan_unflagged : ¬ disguisedPlan.Flagged signals := by
  have quiet : ∀ said ∈ ["grid", "label", "\x08ypass"], ∀ phrase ∈ signals,
      Text.occursIn phrase.toList (said.toList.flatMap Text.lowerChar) = false := by
    decide +kernel
  rintro ⟨said, held, phrase, member, mention⟩
  have among : said ∈ ["grid", "label", "\x08ypass"] := by
    rcases held with rfl | ⟨n, standing, held⟩
    · exact List.mem_cons_self
    · obtain rfl := List.mem_singleton.mp standing
      cases held with
      | name among =>
        obtain ⟨rfl, -⟩ := Prod.mk.inj (List.mem_singleton.mp among)
        decide
      | value among inside =>
        obtain rfl := List.mem_singleton.mp among
        simp only [Value.settled] at inside
        cases inside
        decide
      | child among => cases among
  have occurs := Text.occursIn_iff.mpr mention
  rw [quiet said among phrase member] at occurs
  cases occurs

/-- A control character before the rest of a phrase gets a plan rejected that contains no phrase. -/
theorem disguised_plan_rejected : ∃ text,
    Request.readMessage (some (.ofNat ({} : Settings).maxRequestLength.val)) (.str "a card") = .ok "a card" ∧
      disguisedPlan.compact = .ok text ∧
      ¬ ((plan {} cardService (.str "a card") (some disguisedPlan) cardSession).1 = .error flaggedPlan ↔
        disguisedPlan.Flagged signals) := by
  obtain ⟨text, serialisable⟩ := writable_disguisedPlan
  have screened := (screen_flagged_iff fit_card serialisable).mpr disguisedPlan_flagged
  have rejected := (plan_rejected_iff cardService cardSession).mpr screened
  exact ⟨text, fit_card, serialisable, fun same => disguisedPlan_unflagged (same.mp rejected)⟩

end Planner
end ScreenPlan
