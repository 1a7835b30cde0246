import ScreenPlan.Proofs.Markup.Outline

/-!
# Candidates that say the same

Two candidates are twins if they have the same layout and, node by node, the same type, the same values under the same
names of props, and twins for children. In what order their keys come, which others they have, and whether props or
children that are empty are written down, makes no difference to the code.
-/

namespace ScreenPlan.Markup
namespace Untyped

/-- The props of a node; those that are null or missing are empty. -/
def propsAt (v : Value) : Table Value := ((field? v "props").bind Value.fields?).getD []

inductive Twins : Value → Value → Prop
  | node {v w : Value} (type : field? v "type" = field? w "type")
      (props : ∀ name, (propsAt v).get? name = (propsAt w).get? name)
      (length : (itemsAt v "children").length = (itemsAt w "children").length)
      (each : ∀ e ∈ (itemsAt v "children").zip (itemsAt w "children"), Twins e.1 e.2) : Twins v w

structure TwinPlans (c c' : Value) : Prop where
  layout : field? c "layout" = field? c' "layout"
  length : (itemsAt c "components").length = (itemsAt c' "components").length
  each : ∀ e ∈ (itemsAt c "components").zip (itemsAt c' "components"), Twins e.1 e.2

variable {v w c c' : Value}

/-! ### Tags -/

/-- Props that are no object are projected as empty ones are. -/
theorem projectRaw_propsAt (type : Value) (v : Value) :
    projectRaw type ((field? v "props").getD .null) =
      (Kind.ofValue? type).elim [] fun kind => kind.spec.project (propsAt v) := by
  unfold projectRaw propsAt
  cases Kind.ofValue? type with
  | none => rfl
  | some kind =>
    cases field? v "props" with
    | none => exact kind.spec.project_nil.symm
    | some props => cases props <;> first | rfl | exact kind.spec.project_nil.symm

theorem Twins.tag_eq (twins : Twins v w) : tag v = tag w := by
  obtain ⟨type, props, _, _⟩ := twins
  unfold tag textAt
  rw [projectRaw_propsAt, projectRaw_propsAt, type]
  cases Kind.ofValue? ((field? w "type").getD .null) with
  | none => rfl
  | some kind =>
    show (settings (kind.spec.project (propsAt v))).map _ = (settings (kind.spec.project (propsAt w))).map _
    rw [Spec.project_congr fun name _ => props name]

/-! ### Lines -/

inductive Entry.Twins : Entry → Entry → Prop
  | opening {v w : Value} (twins : Untyped.Twins v w) (level : Nat) : Twins (.opening v level) (.opening w level)
  | closing (type : String) (level : Nat) : Twins (.closing type level) (.closing type level)

theorem twins_openings {vs ws : List Value} (length : vs.length = ws.length)
    (each : ∀ e ∈ vs.zip ws, Twins e.1 e.2) (level : Nat) :
    List.Forall₂ Entry.Twins (Entry.openings level vs) (Entry.openings level ws) := by
  unfold Entry.openings
  rw [List.forall₂_map_left_iff, List.forall₂_map_right_iff, List.forall₂_iff_zip]
  refine ⟨length, fun {v w} member => ?_⟩
  exact .opening (each (v, w) member) level

theorem Twins.isEmpty_eq (twins : Twins v w) : (itemsAt v "children").isEmpty = (itemsAt w "children").isEmpty := by
  obtain ⟨_, _, length, _⟩ := twins
  rw [Bool.eq_iff_iff, List.isEmpty_iff_length_eq_zero, List.isEmpty_iff_length_eq_zero, length]

/-- What a node puts on top of its stack depends on what twins have in common. -/
theorem Twins.inner (twins : Twins v w) (level : Nat) : List.Forall₂ Entry.Twins
    (if (itemsAt v "children").isEmpty then []
      else Entry.openings (level + 1) (itemsAt v "children") ++ [.closing (textAt v "type") level])
    (if (itemsAt w "children").isEmpty then []
      else Entry.openings (level + 1) (itemsAt w "children") ++ [.closing (textAt w "type") level]) := by
  rw [twins.isEmpty_eq]
  obtain ⟨type, _, length, each⟩ := twins
  have closing : textAt v "type" = textAt w "type" := by rw [textAt, textAt, type]
  rw [closing]
  split
  · exact .nil
  · exact List.rel_append (twins_openings length each (level + 1)) (.cons (.closing _ level) .nil)

theorem lines_twins {first second : List Entry} (aligned : List.Forall₂ Entry.Twins first second) :
    lines first = lines second := by
  induction first using lines.induct generalizing second with
  | case1 =>
    cases aligned
    rfl
  | case2 type level rest ih =>
    obtain _ | ⟨⟨⟩, below⟩ := aligned
    rw [lines, lines, ih below]
  | case3 node level rest o failed =>
    obtain _ | ⟨⟨twins⟩, below⟩ := aligned
    rw [lines, lines, ← twins.tag_eq, failed]
  | case4 node level rest t tagged children inner =>
    rename_i ih
    obtain _ | ⟨⟨twins⟩, below⟩ := aligned
    have above := ih (List.rel_append (twins.inner level) below)
    rw [lines, lines, ← twins.tag_eq, tagged]
    dsimp only
    rw [← above, ← twins.isEmpty_eq]
    rfl

theorem render_twins (twins : TwinPlans c c') (importPath : String) : render importPath c = render importPath c' := by
  obtain ⟨layout, length, each⟩ := twins
  unfold render textAt
  rw [lines_twins (twins_openings length each 3), layout]

end Untyped

open Untyped (TwinPlans)

variable {c c' : Value}

/-- Twins that are accepted are rendered alike, whatever comes of it. -/
theorem generate_twins (twins : TwinPlans c c') (accepted : audit c = []) (accepted' : audit c' = [])
    (importPath : String) : generate importPath c = generate importPath c' := by
  rw [Untyped.generate_eq, Untyped.generate_eq, Untyped.generate, Untyped.generate, accepted, accepted']
  dsimp only
  rw [Untyped.render_twins twins]

/-! ### What is answered -/

/-- What comes of an accepted plan: its module, or what stands in the way of the first value, in some tag, that cannot
be written. -/
inductive Answered (importPath : String) (p : Plan) : Except Json.Obstacle Generated → Prop
  | written {code : String} (module : renderPlan importPath p = .ok code) : Answered importPath p (.ok ⟨code, true⟩)
  | stuck {node : Node} {level : Nat} {prop : String × Value} {o : Json.Obstacle}
      (within : (node, level) ∈ preorders 3 p.components) (allowed : prop ∈ node.kind.spec.project node.props)
      (refused : prop.2.compact = .error o) (unfit : ¬ Json.Fits Json.fast.room prop.2) :
      Answered importPath p (.error o)

theorem generate_answered (accepted : audit c = []) (importPath : String) :
    ∃ p, accept c = .ok p ∧ Answered importPath p (generate importPath c) := by
  obtain ⟨p, read, accepts⟩ := accept_of_clean accepted
  refine ⟨p, accepts, ?_⟩
  have rendered := rendered_lines 3 p.components
  have made : generate importPath c = (renderPlan importPath p).map fun code => ⟨code, true⟩ := by
    rw [generate, accepted, read]
  rw [made]
  generalize answer : lines (Job.openings 3 p.components) = answer? at rendered
  cases rendered with
  | written =>
    have module : renderPlan importPath p = .ok _ := congrArg (Except.map _) answer
    rw [module]
    exact .written module
  | @stuck before after node level o split _ _ refused =>
    have failed : renderPlan importPath p = .error o := congrArg (Except.map _) answer
    have within : (node, level) ∈ preorders 3 p.components := by
      rw [split]
      exact List.mem_append_right _ List.mem_cons_self
    obtain ⟨prop, allowed, refused, unfit⟩ := refused
    rw [failed]
    exact .stuck within allowed refused unfit

/-- Two candidates that the audit accepts and that differ in nothing but the order of keys, further keys of the root
or of nodes, and props or children that are empty and may be missing, are answered with the same text; or with the
same failure, if some value in some tag cannot be written. -/
theorem twins_rendered_alike {c c' : Value} (twins : TwinPlans c c') (accepted : audit c = [])
    (accepted' : audit c' = []) (importPath : String) :
    generate importPath c = generate importPath c' ∧
      ∃ p, accept c = .ok p ∧ Answered importPath p (generate importPath c) :=
  ⟨generate_twins twins accepted accepted' importPath, generate_answered accepted importPath⟩

def tidy : Value :=
  .object [("layout", .str "grid"), ("components", .list [.object [("type", .str "Card"),
    ("children", .list [.object [("type", .str "Button"),
      ("props", .object [("label", .str "Go"), ("size", .str "sm")])]])]])]

/-- The same card, written down in another way. -/
def untidy : Value :=
  .object [("note", .int 1), ("components", .list [.object [("props", .null), ("children", .list [.object [
    ("props", .object [("size", .str "sm"), ("label", .str "Go")]), ("children", .list []),
    ("type", .str "Button")]]), ("id", .int 7), ("type", .str "Card")]]), ("layout", .str "grid")]

def tidyPlan : Plan := ⟨"grid", [⟨.card, [], [⟨.button, [("label", .str "Go"), ("size", .str "sm")], []⟩]⟩]⟩

theorem twins_untidy : TwinPlans tidy untidy := by
  have button : ∀ name, Table.get? [("label", Value.str "Go"), ("size", .str "sm")] name =
      Table.get? [("size", .str "sm"), ("label", .str "Go")] name := by
    intro name
    simp only [Table.get?_cons, Table.get?_nil]
    by_cases label : "label" = name
    · subst label
      rfl
    · simp only [label, if_false]
  refine ⟨rfl, rfl, List.forall_mem_singleton.mpr (.node rfl (fun _ => rfl) rfl ?_)⟩
  exact List.forall_mem_singleton.mpr (.node rfl button rfl (List.forall_mem_nil _))

theorem accept_tidy : accept tidy = .ok tidyPlan := by
  have clean : audit tidy = [] := by cbv
  have read : Plan.read tidy = .ok tidyPlan := by with_unfolding_all rfl
  exact accept_eq_ok.mpr ⟨clean, read⟩

theorem twins_rendered_alike_untidy : TwinPlans tidy untidy ∧ audit tidy = [] ∧ audit untidy = [] ∧
    ∃ code, generate defaultImportPath tidy = .ok ⟨code, true⟩ ∧
      generate defaultImportPath untidy = .ok ⟨code, true⟩ := by
  have accepted := (accept_eq_ok.mp accept_tidy).1
  have accepted' : audit untidy = [] := by cbv
  obtain ⟨same, p, accepts, answered⟩ := twins_rendered_alike twins_untidy accepted accepted' defaultImportPath
  obtain rfl := Except.ok.inj (accept_tidy.symm.trans accepts)
  refine ⟨twins_untidy, accepted, accepted', ?_⟩
  rw [← same]
  generalize generate defaultImportPath tidy = answer at answered
  cases answered with
  | written => exact ⟨_, rfl, rfl⟩
  | @stuck node level prop o within allowed refused unfit =>
    have texts : ∀ e ∈ preorders 3 tidyPlan.components, ∀ prop ∈ e.1.kind.spec.project e.1.props,
        prop.2.isText = true := by decide
    obtain ⟨text, plain⟩ := Grammar.isText_iff.mp (texts _ within _ allowed)
    rw [plain] at unfit
    exact (unfit (.str text)).elim

/-! ### Twins without a text -/

def annotated (n : Nat) : Value :=
  .object [("note", .int 1), ("layout", .str "grid"), ("components", .list [deepButton n])]

theorem annotated_isPlan (n : Nat) : Grammar.IsPlan (annotated n) :=
  .root (by decide) rfl rfl (List.forall_mem_singleton.mpr (deepButton_isNode n))

theorem twins_annotated (n : Nat) : TwinPlans (Planner.nested n) (annotated n) :=
  ⟨rfl, rfl, List.forall_mem_singleton.mpr (.node rfl (fun _ => rfl) rfl (List.forall_mem_nil _))⟩

theorem generate_annotated {n : Nat} (deep : Json.stackRoom ≤ n) (importPath : String) :
    generate importPath (annotated n) = .error .tooDeep := by
  have stopped : Untyped.lines [.opening (deepButton n) 3] = .error .tooDeep := by
    rw [Untyped.lines, tag_deepButton deep]
  rw [Untyped.generate_eq, Untyped.generate, Grammar.audit_eq_nil.mpr (annotated_isPlan n)]
  show ((Untyped.lines [.opening (deepButton n) 3]).map _).map _ = _
  rw [stopped]
  rfl

/-- Two plans are accepted that differ in a note, and there is no text for either. -/
theorem deep_twins_unrendered :
    TwinPlans (Planner.nested 3000) (annotated 3000) ∧ audit (Planner.nested 3000) = [] ∧
      audit (annotated 3000) = [] ∧
      ¬ ∃ g, generate defaultImportPath (Planner.nested 3000) = .ok g ∧
        generate defaultImportPath (annotated 3000) = .ok g := by
  have accepted := Grammar.audit_eq_nil.mpr (Planner.nested_isPlan 3000)
  have accepted' := Grammar.audit_eq_nil.mpr (annotated_isPlan 3000)
  refine ⟨twins_annotated 3000, accepted, accepted', ?_⟩
  rintro ⟨g, -, made⟩
  rw [generate_annotated (by decide)] at made
  cases made

end ScreenPlan.Markup
