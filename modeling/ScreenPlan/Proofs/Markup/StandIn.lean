import ScreenPlan.Proofs.Planner.Outcomes

/-!
# The header of the stand-in

What is written into the header comment of the stand-in ends it early exactly if a disallowed name
does: everything else that a violation says is without a star.
-/

namespace ScreenPlan

open Audit

namespace Markup

def Closes (s : List Char) : Prop := ['*', '/'] <:+: s

def afterComment : List Char → Option (List Char)
  | [] => none
  | c :: s => if c = '*' ∧ s.head? = some '/' then some s.tail else afterComment s

/-- After the first end of a comment there is an empty line and the fixed component, no more. -/
def Contained (code : String) : Prop := afterComment code.toList = some ("\n\n" ++ standIn).toList

/-! ### Ends of comments -/

theorem closes_cons {c : Char} {s : List Char} :
    Closes (c :: s) ↔ (c = '*' ∧ s.head? = some '/') ∨ Closes s := by
  rw [Closes, List.infix_cons_iff, List.cons_prefix_cons, eq_comm, Closes]
  cases s with
  | nil => simp
  | cons d s => simp [eq_comm]

theorem not_closes_nil : ¬ Closes [] := by
  intro closes
  cases List.eq_nil_of_infix_nil closes

theorem not_closes_of_starless {s : List Char} (starless : '*' ∉ s) : ¬ Closes s :=
  fun closes => starless (closes.subset List.mem_cons_self)

theorem afterComment_append (s t : List Char) :
    afterComment (s ++ '*' :: '/' :: t) = some t ↔ ¬ Closes s := by
  induction s with
  | nil => exact ⟨fun _ => not_closes_nil, fun _ => rfl⟩
  | cons c s ih =>
    have head : (s ++ '*' :: '/' :: t).head? = some '/' ↔ s.head? = some '/' := by
      cases s <;> simp
    rw [closes_cons, List.cons_append, afterComment]
    by_cases here : c = '*' ∧ s.head? = some '/'
    · rw [if_pos ⟨here.1, head.mpr here.2⟩]
      simp only [here, true_and, true_or, not_true_eq_false, iff_false]
      intro same
      have := congrArg List.length (Option.some.inj same)
      cases s with
      | nil => cases here.2
      | cons d s =>
        simp only [List.cons_append, List.tail_cons, List.length_append, List.length_cons] at this
        omega
    · rw [if_neg fun both => here ⟨both.1, head.mp both.2⟩, ih, or_iff_right here]

theorem closes_append_cons {a b : List Char} {c : Char} (star : c ≠ '*') (slash : c ≠ '/') :
    Closes (a ++ c :: b) ↔ Closes a ∨ Closes b := by
  induction a with
  | nil => simp [closes_cons, star, not_closes_nil]
  | cons d a ih =>
    have head : (a ++ c :: b).head? = some '/' ↔ a.head? = some '/' := by
      cases a <;> simp [slash]
    rw [List.cons_append, closes_cons, closes_cons, head, ih, or_assoc]

theorem closes_intercalate {texts : List String} :
    Closes (String.intercalate "\n" texts).toList ↔ ∃ text ∈ texts, Closes text.toList := by
  rw [String.toList_intercalate]
  induction texts with
  | nil => simp [not_closes_nil]
  | cons text texts ih =>
    cases texts with
    | nil => simp
    | cons next texts =>
      rw [List.map_cons] at ih
      rw [List.map_cons, List.map_cons, List.intercalate_cons_cons, List.append_assoc]
      show Closes (text.toList ++ '\n' :: List.intercalate _ (next.toList :: _)) ↔ _
      rw [closes_append_cons (by decide) (by decide), ih]
      simp

theorem toList_diagnostic (errors : List String) : (diagnostic errors).toList =
    ('/' :: "* Invalid UI plan:".toList ++ '\n' :: ((String.intercalate "\n" errors).toList ++ ' ' :: [])) ++
      '*' :: '/' :: ("\n\n" ++ standIn).toList := by
  unfold diagnostic
  generalize standIn = component
  simp [-String.toList_intercalate]

theorem contained_diagnostic {errors : List String} :
    Contained (diagnostic errors) ↔ ∀ e ∈ errors, ¬ Closes e.toList := by
  have opening : ¬ Closes ('/' :: "* Invalid UI plan:".toList) := by
    simp [closes_cons, not_closes_nil]
  rw [Contained, toList_diagnostic, afterComment_append, closes_append_cons (by decide) (by decide),
    closes_append_cons (by decide) (by decide), closes_intercalate]
  simp only [opening, not_closes_nil, false_or, or_false, not_exists, not_and]

/-! ### Names that are refused -/

/-- Among the nodes that the audit reaches there is one that carries a prop of the name although its
kind does not allow it. -/
inductive Refuses (name : String) : Nat → Value → Prop
  | here {level : Nat} {fields props : Table Value} {kind : Kind} (shallow : level ≤ maxLevel)
      (type : fields.get? "type" = some (.str kind.name))
      (table : fields.get? "props" = some (.object props))
      (carried : name ∈ props.names) (stray : name ∉ kind.spec.allowed) :
      Refuses name level (.object fields)
  | under {level : Nat} {fields : Table Value} {kind : Kind} {children : List Value} {child : Value}
      (shallow : level ≤ maxLevel)
      (type : fields.get? "type" = some (.str kind.name))
      (listed : fields.get? "children" = some (.list children))
      (member : child ∈ children) (refused : Refuses name (level + 1) child) :
      Refuses name level (.object fields)

inductive RefusesName (name : String) : Value → Prop
  | root {fields : Table Value} {components : List Value} {node : Value}
      (listed : fields.get? "components" = some (.list components))
      (member : node ∈ components) (refused : Refuses name 1 node) : RefusesName name (.object fields)

def Breaks (violations : List Violation) : Prop := ∃ v ∈ violations, Closes v.text.toList

theorem breaks_append {vs ws : List Violation} : Breaks (vs ++ ws) ↔ Breaks vs ∨ Breaks ws := by
  simp only [Breaks, List.mem_append, or_and_right, exists_or]

theorem not_breaks_nil : ¬ Breaks [] := by
  rintro ⟨v, none, -⟩
  cases none

/-! ### Texts without a star -/

def Starless (s : String) : Prop := '*' ∉ s.toList

instance (s : String) : Decidable (Starless s) := inferInstanceAs (Decidable ('*' ∉ s.toList))

theorem starless_append {s t : String} : Starless (s ++ t) ↔ Starless s ∧ Starless t := by
  simp only [Starless, String.toList_append, List.mem_append, not_or]

theorem starless_intercalate {separator : String} {texts : List String} (plain : Starless separator)
    (each : ∀ text ∈ texts, Starless text) : Starless (String.intercalate separator texts) := by
  induction texts with
  | nil => simp [Starless]
  | cons text texts ih =>
    have rest := ih fun t ht => each t (List.mem_cons_of_mem _ ht)
    cases texts with
    | nil => simpa using each
    | cons next texts =>
      rw [String.intercalate_cons_cons, starless_append, starless_append]
      exact ⟨⟨each _ List.mem_cons_self, plain⟩, rest⟩

theorem starless_toString (n : Nat) : Starless (toString n) := by
  intro star
  have star : '*' ∈ Nat.toDigits 10 n := by
    rwa [← Nat.toList_repr]
  have := Nat.isDigit_of_mem_toDigits (by decide) (by decide) star
  revert this
  decide

theorem starless_componentPath (i : Nat) : Starless (componentPath i) := by
  simp only [componentPath, starless_append]
  exact ⟨⟨by decide, starless_toString i⟩, by decide⟩

theorem starless_childPath {path : String} (plain : Starless path) (i : Nat) :
    Starless (childPath path i) := by
  simp only [childPath, starless_append]
  exact ⟨⟨⟨plain, by decide⟩, starless_toString i⟩, by decide⟩

theorem starless_propPath {path prop : String} (plain : Starless path) (named : Starless prop) :
    Starless (propPath path prop) := by
  simp only [propPath, starless_append]
  exact ⟨⟨plain, by decide⟩, named⟩

theorem starless_oneOf {choices : List String} (each : ∀ choice ∈ choices, Starless choice) :
    Starless (oneOf choices) := by
  show Starless ("must be one of: " ++ String.intercalate ", " choices ++ ".")
  rw [starless_append, starless_append]
  exact ⟨⟨by decide, starless_intercalate (by decide) each⟩, by decide⟩

theorem starless_choices (kind : Kind) :
    ∀ entry ∈ kind.spec.choices, Starless entry.1 ∧ ∀ choice ∈ entry.2, Starless choice := by
  cases kind <;> decide

theorem starless_textProps : ∀ key ∈ textProps, Starless key := by
  decide

theorem starless_kind (kind : Kind) : Starless kind.name := by
  cases kind <;> decide

theorem not_breaks {vs : List Violation}
    (plain : ∀ v ∈ vs, Starless v.path ∧ Starless v.message) : ¬ Breaks vs := by
  rintro ⟨v, member, closes⟩
  have := plain v member
  refine not_closes_of_starless ?_ closes
  show Starless (v.path ++ " " ++ v.message)
  rw [starless_append, starless_append]
  exact ⟨⟨this.1, by decide⟩, this.2⟩

theorem not_breaks_single {path message : String} {code : ViolationCode} (plain : Starless path)
    (fixed : Starless message) : ¬ Breaks [⟨path, message, code⟩] := by
  apply not_breaks
  intro v member
  obtain rfl := List.mem_singleton.mp member
  exact ⟨plain, fixed⟩

/-! ### What the audit writes -/

/-- A refused name is all that a violation says in words of the candidate. -/
theorem closes_refusal {kind : Kind} {path name : String} (plain : Starless path) :
    Closes (Violation.text ⟨propPath path name, "is not allowed for " ++ kind.name ++ ".", .propNotAllowed⟩).toList ↔
      Closes name.toList := by
  have before : ¬ Closes (path ++ ".props").toList :=
    not_closes_of_starless (starless_append.mpr ⟨plain, by decide⟩)
  have after : ¬ Closes ("is not allowed for " ++ kind.name ++ ".").toList :=
    not_closes_of_starless
      (starless_append.mpr ⟨starless_append.mpr ⟨by decide, starless_kind kind⟩, by decide⟩)
  have text : (Violation.text
      ⟨propPath path name, "is not allowed for " ++ kind.name ++ ".", .propNotAllowed⟩).toList =
      (path ++ ".props").toList ++ '.' :: (name.toList ++ ' ' ::
        ("is not allowed for " ++ kind.name ++ ".").toList) := by
    simp [Violation.text, propPath]
  rw [text, closes_append_cons (by decide) (by decide), closes_append_cons (by decide) (by decide),
    or_iff_right before, or_iff_left after]

theorem breaks_disallowed {kind : Kind} {props : Table Value} {path : String} (plain : Starless path) :
    Breaks (disallowed kind props path) ↔
      ∃ name ∈ props.names, name ∉ kind.spec.allowed ∧ Closes name.toList := by
  constructor
  · rintro ⟨v, member, closes⟩
    obtain ⟨⟨name, w⟩, carried, refusal⟩ := List.mem_filterMap.mp member
    dsimp only at refusal
    split at refusal
    · cases refusal
    · next stray =>
      obtain rfl := Option.some.inj refusal
      exact ⟨name, List.mem_map.mpr ⟨_, carried, rfl⟩, by simpa [Spec.allows] using stray,
        (closes_refusal plain).mp closes⟩
  · rintro ⟨name, carried, stray, closes⟩
    obtain ⟨⟨name, w⟩, entry, rfl⟩ := List.mem_map.mp carried
    refine ⟨_, List.mem_filterMap.mpr ⟨_, entry, if_neg ?_⟩, (closes_refusal plain).mpr closes⟩
    simpa [Spec.allows] using stray

theorem not_breaks_misused {kind : Kind} {props : Table Value} {path : String} (plain : Starless path) :
    ¬ Breaks (misused kind props path) := by
  apply not_breaks
  intro v member
  obtain ⟨⟨prop, choices⟩, listed, found⟩ := List.mem_filterMap.mp member
  obtain ⟨named, each⟩ := starless_choices kind _ listed
  dsimp only at found
  split at found
  · split at found
    · cases found
    · obtain rfl := Option.some.inj found
      exact ⟨starless_propPath plain named, starless_oneOf each⟩
  · cases found

theorem not_breaks_untexted {props : Table Value} {path : String} (plain : Starless path) :
    ¬ Breaks (untexted props path) := by
  apply not_breaks
  intro v member
  obtain ⟨⟨key, w⟩, -, found⟩ := List.mem_filterMap.mp member
  dsimp only at found
  split at found
  · next known =>
    obtain rfl := Option.some.inj found
    refine ⟨starless_propPath plain (starless_textProps key known.1), ?_⟩
    show Starless "must be a string."
    decide
  · cases found

theorem not_breaks_misshapen {kind : Kind} {props : Table Value} {path : String} (plain : Starless path) :
    ¬ Breaks (misshapen kind props path) := by
  have headers := starless_propPath plain (show Starless "headers" by decide)
  have rows := starless_propPath plain (show Starless "rows" by decide)
  unfold misshapen
  split
  · rw [breaks_append, not_or]
    constructor
    · split
      · exact not_breaks_nil
      · exact not_breaks_single headers (by decide)
    · split
      · exact not_breaks_nil
      · exact not_breaks_single rows (by decide)
  · exact not_breaks_nil

theorem breaks_propViolations {kind : Kind} {props : Table Value} {path : String} (plain : Starless path) :
    Breaks (propViolations kind props path) ↔
      ∃ name ∈ props.names, name ∉ kind.spec.allowed ∧ Closes name.toList := by
  rw [propViolations, breaks_append, breaks_append, breaks_append, breaks_disallowed plain,
    or_iff_left (not_breaks_misshapen plain), or_iff_left (not_breaks_untexted plain),
    or_iff_left (not_breaks_misused plain)]

theorem breaks_propsViolations {kind : Kind} {props : Option Value} {path : String} (plain : Starless path) :
    Breaks (propsViolations kind props path) ↔ ∃ ps name, props = some (.object ps) ∧
      name ∈ Table.names ps ∧ name ∉ kind.spec.allowed ∧ Closes name.toList := by
  unfold propsViolations
  split
  · rw [breaks_propViolations plain]
    simp [Table.names]
  · rw [breaks_propViolations plain]
    simp [Table.names]
  · next ps =>
    rw [breaks_propViolations plain]
    constructor
    · rintro ⟨name, carried, rest⟩
      exact ⟨ps, name, rfl, carried, rest⟩
    · rintro ⟨_, name, same, carried, rest⟩
      cases same
      exact ⟨name, carried, rest⟩
  · next other =>
    refine iff_of_false (not_breaks_single (starless_append.mpr ⟨plain, by decide⟩) (by decide)) ?_
    rintro ⟨ps, name, same, -⟩
    exact other ps (Option.some.inj same)

theorem not_breaks_childrenViolations {children : Option Value} {path : String} (plain : Starless path) :
    ¬ Breaks (childrenViolations children path) := by
  unfold childrenViolations
  split
  · exact not_breaks_nil
  · exact not_breaks_nil
  · exact not_breaks_single (starless_append.mpr ⟨plain, by decide⟩) (by decide)

theorem breaks_forest {vs : List Value} {level : Nat} {Bad : Value → Prop}
    (each : ∀ v ∈ vs, ∀ path, Starless path → (Breaks (tree level path v) ↔ Bad v))
    {pathOf : Nat → String} (plain : ∀ i, Starless (pathOf i)) (start : Nat) :
    Breaks (forest pathOf level start vs) ↔ ∃ v ∈ vs, Bad v := by
  induction vs generalizing start with
  | nil => simp [forest_nil, not_breaks_nil]
  | cons v vs ih =>
    rw [forest_cons, breaks_append, each v List.mem_cons_self _ (plain start),
      ih fun w hw => each w (List.mem_cons_of_mem _ hw)]
    simp

theorem breaks_nodeViolations {v : Value} {path : String} (plain : Starless path) :
    Breaks (nodeViolations v path) ↔ ∃ (fields props : Table Value) (kind : Kind) (name : String),
      Grammar.Typed v fields kind ∧ fields.get? "props" = some (.object props) ∧ name ∈ props.names ∧
      name ∉ kind.spec.allowed ∧ Closes name.toList := by
  by_cases typed : ∃ fields kind, Grammar.Typed v fields kind
  · obtain ⟨fields, kind, rfl, type⟩ := typed
    rw [Grammar.nodeViolations_typed type, breaks_append, or_iff_left (not_breaks_childrenViolations plain),
      breaks_propsViolations plain]
    constructor
    · rintro ⟨props, name, table, rest⟩
      exact ⟨fields, props, kind, name, ⟨rfl, type⟩, table, rest⟩
    · rintro ⟨_, props, other, name, ⟨same, type'⟩, table, rest⟩
      cases same
      rw [type] at type'
      cases Kind.name_inj (Value.str.inj (Option.some.inj type'))
      exact ⟨props, name, table, rest⟩
  · refine iff_of_false ?_ fun ⟨fields, _, kind, _, same, _⟩ => typed ⟨fields, kind, same⟩
    rcases (Grammar.untyped typed).2 path with bad | bad
    · rw [bad]
      exact not_breaks_single plain (by decide)
    · rw [bad]
      exact not_breaks_single (starless_append.mpr ⟨plain, by decide⟩) (by decide)

theorem breaks_tree {level : Nat} {path : String} {v : Value} (plain : Starless path) :
    Breaks (tree level path v) ↔ ∃ name, Refuses name level v ∧ Closes name.toList := by
  induction v using children_induction generalizing level path with
  | step v ih =>
    by_cases deep : maxLevel < level
    · rw [tree_of_tooDeep deep]
      refine iff_of_false (not_breaks_single plain (by decide)) ?_
      rintro ⟨name, ⟨shallow, -⟩ | ⟨shallow, -⟩, -⟩ <;> omega
    rw [tree_of_le (by omega), breaks_append, breaks_nodeViolations plain,
      breaks_forest (fun c hc path plain => ih c hc plain) (starless_childPath plain)]
    constructor
    · rintro (⟨fields, props, kind, name, ⟨rfl, type⟩, table, carried, stray, closes⟩ |
        ⟨c, hc, name, refused, closes⟩)
      · exact ⟨name, .here (by omega) type table carried stray, closes⟩
      · obtain ⟨fields, kind, children, ⟨rfl, type⟩, listed, member⟩ := Grammar.mem_childrenOf.mp hc
        exact ⟨name, .under (by omega) type listed member refused, closes⟩
    · rintro ⟨name, ⟨shallow, type, table, carried, stray⟩ | ⟨shallow, type, listed, member, refused⟩, closes⟩
      · exact .inl ⟨_, _, _, name, ⟨rfl, type⟩, table, carried, stray, closes⟩
      · exact .inr ⟨_, Grammar.mem_childrenOf.mpr ⟨_, _, _, ⟨rfl, type⟩, listed, member⟩, name, refused, closes⟩

/-- The audit writes the end of a comment exactly if it refuses a name that holds one. -/
theorem breaks_audit {c : Value} :
    Breaks (audit c) ↔ ∃ name, RefusesName name c ∧ Closes name.toList := by
  cases c with
  | object fields =>
    have layout : ¬ Breaks (layoutViolations (Table.get? fields "layout")) := by
      have wrong : ¬ Breaks [layoutViolations.wrong] :=
        not_breaks_single (by decide) (starless_oneOf (by decide))
      unfold layoutViolations
      split
      · split
        · exact not_breaks_nil
        · exact wrong
      · exact wrong
    rw [audit_object, breaks_append, or_iff_right layout]
    split
    · next components listed =>
      rw [breaks_forest (fun v _ path plain => breaks_tree plain) starless_componentPath]
      constructor
      · rintro ⟨node, member, name, refused, closes⟩
        exact ⟨name, .root listed member refused, closes⟩
      · rintro ⟨name, ⟨listed', member, refused⟩, closes⟩
        cases listed.symm.trans listed'
        exact ⟨_, member, name, refused, closes⟩
    · next unlisted =>
      refine iff_of_false (not_breaks_single (by decide) (by decide)) ?_
      rintro ⟨name, ⟨listed, -⟩, -⟩
      exact unlisted _ listed
  | _ =>
    refine iff_of_false (not_breaks_single (by decide) (by decide)) ?_
    rintro ⟨name, refused, -⟩
    cases refused

theorem contained_audit {c : Value} : Contained (diagnostic (errorTexts (audit c))) ↔
    ∀ name, RefusesName name c → ¬ Closes name.toList := by
  have texts : (∀ e ∈ errorTexts (audit c), ¬ Closes e.toList) ↔ ¬ Breaks (audit c) := by
    simp only [errorTexts, List.forall_mem_map, Breaks, not_exists, not_and]
  rw [contained_diagnostic, texts, breaks_audit]
  simp only [not_exists, not_and]

theorem generate_rejected {c : Value} (wrong : audit c ≠ []) (importPath : String) :
    generate importPath c = .ok ⟨diagnostic (errorTexts (audit c)), false⟩ := by
  unfold generate
  split
  · next right _ => exact (wrong right).elim
  · rfl

end Markup

namespace Planner

/-- A request without a plan is answered by a stand-in for what the reply holds. -/
theorem render_refused {settings : Settings} {service : Service} {request : Value}
    {previous : Option Plan} {s s' : Session} {errors : List String}
    (refused : plan settings service request previous s = (.ok ⟨none, errors⟩, s')) :
    (render settings service request previous s).1 = .ok (Markup.diagnostic errors) ∧
      ∃ candidate, Extracted service s s' candidate ∧ audit candidate ≠ [] ∧
        errors = errorTexts (audit candidate) := by
  refine ⟨by rw [render, refused], ?_⟩
  obtain ⟨ending, t, course, planned⟩ := plan_course settings service request previous s
  rw [planned] at refused
  obtain ⟨answer, rfl⟩ := Prod.mk.inj refused
  have wrong : Refused service s t ⟨none, errors⟩ := by
    cases course with
    | found => cases answer
    | missed _ _ _ _ consulted | storeless _ _ consulted =>
      rcases consulted_outcome consulted answer with ⟨p, ⟨planned, -⟩, -⟩ | wrong
      · cases planned
      · exact wrong
    | _ => cases answer
  obtain ⟨-, some, candidate, extracted, rfl⟩ := wrong
  refine ⟨candidate, extracted, ?_, rfl⟩
  rintro right
  rw [right] at some
  exact some rfl

end Planner

namespace Markup

/-! ### A reply with names that do not end the header -/

def starredText : String :=
  "\x7b\"layout\":\"grid\",\"components\":[\x7b\"type\":\"Card\",\"props\":\x7b\"*\":1,\"/*\":2\x7d\x7d]\x7d"

def starredChars : List Char :=
  ['{', '"', 'l', 'a', 'y', 'o', 'u', 't', '"', ':', '"', 'g', 'r', 'i', 'd', '"', ',', '"', 'c',
    'o', 'm', 'p', 'o', 'n', 'e', 'n', 't', 's', '"', ':', '[', '{', '"', 't', 'y', 'p', 'e', '"',
    ':', '"', 'C', 'a', 'r', 'd', '"', ',', '"', 'p', 'r', 'o', 'p', 's', '"', ':', '{', '"', '*',
    '"', ':', '1', ',', '"', '/', '*', '"', ':', '2', '}', '}', ']', '}']

def starred : Value :=
  .object [("layout", .str "grid"), ("components", .list [.object [("type", .str "Card"),
    ("props", .object [("*", .int 1), ("/*", .int 2)])]])]

def starredService : Service := fun _ => ⟨0.5, .ok (.str starredText)⟩

theorem read_starredText : (Planner.readReply {} (.str starredText)).result = .ok starred := by
  have size : starredText.utf8ByteSize = 71 := by with_unfolding_all rfl
  have small : Text.checkSize starredText (.ofNat 524288) "Planner response" = .ok () := by
    rw [Text.checkSize, size]
    rfl
  exact Planner.read_document (s := starredChars) small (by with_unfolding_all rfl) (by decide)
    (by with_unfolding_all rfl) (by with_unfolding_all rfl)

theorem audit_starred : audit starred = [
    ⟨"components[0].props.*", "is not allowed for Card.", .propNotAllowed⟩,
    ⟨"components[0].props./*", "is not allowed for Card.", .propNotAllowed⟩] := by
  cbv

def starredSession (settings : Settings) : Session := Planner.run settings [.wait 1.0] Planner.cardSession

theorem starredService_refused : ∃ s', Planner.plan {} starredService (.str "a card") none (starredSession {}) =
    (.ok ⟨none, errorTexts (audit starred)⟩, s') := by
  have replies : ∀ prompt, (starredService prompt).reply = .ok (.str starredText) := fun _ => rfl
  have judged : Planner.Judged starred
      (Planner.plan {} starredService (.str "a card") none (starredSession {})).1 :=
    Planner.first_judged replies read_starredText
  generalize Planner.plan {} starredService (.str "a card") none (starredSession {}) = result at judged ⊢
  obtain ⟨answer, s'⟩ := result
  refine ⟨s', ?_⟩
  rcases judged with ⟨p, right, -⟩ | ⟨-, rfl⟩
  · rw [audit_starred] at right
    cases right
  · rfl

/-! ### Exactly the names decide -/

/-- Whether a candidate is generated or planned: nothing that it says stands outside the header of its
stand-in, unless it refuses a name that ends a comment, and then something does. -/
theorem standIn_contained_iff (settings : Settings) (service : Service) (request : Value)
    (previous : Option Plan) (s : Session) (importPath : String) (c : Value) :
    (audit c ≠ [] →
      ∃ code, generate importPath c = .ok ⟨code, false⟩ ∧
        (Contained code ↔ ∀ name, RefusesName name c → ¬ Closes name.toList)) ∧
    ∀ (errors : List String) (s' : Session),
      Planner.plan settings service request previous s = (.ok ⟨none, errors⟩, s') →
      ∃ candidate code, Planner.Extracted service s s' candidate ∧ audit candidate ≠ [] ∧
        (Planner.render settings service request previous s).1 = .ok code ∧
        (Contained code ↔ ∀ name, RefusesName name candidate → ¬ Closes name.toList) := by
  constructor
  · intro wrong
    exact ⟨_, generate_rejected wrong importPath, contained_audit⟩
  · intro errors s' refused
    obtain ⟨rendered, candidate, extracted, wrong, rfl⟩ := Planner.render_refused refused
    exact ⟨candidate, _, extracted, wrong, rendered, contained_audit⟩

/-- A star and a slash in two names next to each other do no harm. -/
theorem standIn_contained_starred :
    (audit starred ≠ [] ∧
      ∃ code, generate defaultImportPath starred = .ok ⟨code, false⟩ ∧
        (Contained code ↔ ∀ name, RefusesName name starred → ¬ Closes name.toList)) ∧
    ∃ s', Planner.plan {} starredService (.str "a card") none (starredSession {}) =
        (.ok ⟨none, errorTexts (audit starred)⟩, s') ∧
      ∃ candidate code, Planner.Extracted starredService (starredSession {}) s' candidate ∧
        audit candidate ≠ [] ∧
        (Planner.render {} starredService (.str "a card") none (starredSession {})).1 = .ok code ∧
        (Contained code ↔ ∀ name, RefusesName name candidate → ¬ Closes name.toList) := by
  have wrong : audit starred ≠ [] := by
    rw [audit_starred]
    exact List.cons_ne_nil _ _
  obtain ⟨s', refused⟩ := starredService_refused
  have contained := standIn_contained_iff {} starredService (.str "a card") none (starredSession {})
    defaultImportPath starred
  exact ⟨⟨wrong, contained.1 wrong⟩, s', refused, contained.2 _ s' refused⟩

/-- A button with a prop whose name ends the comment. -/
def forged : Value :=
  .object [("layout", .str "grid"), ("components", .list [.object [("type", .str "Button"),
    ("props", .object [("label", .str "x"), ("*/ steal(); /*", .int 1)])]])]

theorem forged_not_contained : audit forged ≠ [] ∧
    ∃ code, generate defaultImportPath forged = .ok ⟨code, false⟩ ∧ ¬ Contained code := by
  have refused : RefusesName "*/ steal(); /*" forged := by
    have button : "Button" = Kind.button.name := rfl
    refine .root rfl List.mem_cons_self (.here (by decide) (congrArg (some ∘ Value.str) button) rfl ?_ ?_)
    · decide
    · decide
  have closes : Closes "*/ steal(); /*".toList := by
    simp [closes_cons]
  have wrong : audit forged ≠ [] := by
    intro right
    obtain ⟨v, member, -⟩ := breaks_audit.mpr ⟨_, refused, closes⟩
    rw [right] at member
    cases member
  exact ⟨wrong, _, generate_rejected wrong _, fun contained => contained_audit.mp contained _ refused closes⟩

end Markup
end ScreenPlan
