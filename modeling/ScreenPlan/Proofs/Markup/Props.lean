import ScreenPlan.Proofs.Audit.Distinct
import ScreenPlan.Proofs.Catalog
import ScreenPlan.Proofs.Markup.Twins

/-!
# Nothing lost

The renderer projects the props of every node once more, without asking whether they were audited. For the nodes of an
accepted candidate, at any depth, nothing is lost on the way: the projection is the table of props in another order,
and the node's line in the code sets all of them.
-/

namespace ScreenPlan.Markup
namespace Untyped
open Value (Unambiguous)

/-- The node itself and what stands below it. -/
inductive Below : Value → Value → Prop
  | self (v : Value) : Below v v
  | child {v c w : Value} (member : c ∈ itemsAt v "children") (below : Below c w) : Below v w

def NodeOf (candidate v : Value) : Prop := ∃ root ∈ itemsAt candidate "components", Below root v

variable {v w c : Value} {level : Nat} {kind : Kind}

/-! ### Props of accepted nodes -/

theorem isNode_child (node : Grammar.IsNode level v) (member : c ∈ itemsAt v "children") :
    Grammar.IsNode (level + 1) c := by
  cases node with
  | leaf _ _ _ bare =>
    rw [itemsAt, field?, Value.fields?, Option.bind_some, bare] at member
    cases member
  | parent _ _ _ listed each =>
    rw [itemsAt, field?, Value.fields?, Option.bind_some, listed] at member
    exact each c member

theorem isNode_below (node : Grammar.IsNode level v) (below : Below v w) : ∃ level, Grammar.IsNode level w := by
  induction below generalizing level with
  | self => exact ⟨level, node⟩
  | child member _ ih => exact ih (isNode_child node member)

theorem isNode_of_accepted (accepted : audit c = []) (member : v ∈ itemsAt c "components") (below : Below v w) :
    ∃ level, Grammar.IsNode level w := by
  obtain ⟨_, _, listed, each⟩ := Grammar.audit_eq_nil.mp accepted
  rw [itemsAt, field?, Value.fields?, Option.bind_some, listed] at member
  exact isNode_below (each v member) below

theorem unambiguous_field {name : String} (whole : v.Unambiguous) (found : field? v name = some w) :
    w.Unambiguous := by
  cases v with
  | object fields => exact whole.entry found
  | _ => cases found

theorem unambiguous_item {name : String} (whole : v.Unambiguous) (member : c ∈ itemsAt v name) :
    c.Unambiguous := by
  unfold itemsAt at member
  cases found : field? v name with
  | none =>
    rw [found] at member
    cases member
  | some w =>
    rw [found] at member
    cases w with
    | list xs => exact Value.unambiguous_list.mp (unambiguous_field whole found) c member
    | _ => cases member

theorem unambiguous_below (whole : v.Unambiguous) (below : Below v w) : w.Unambiguous := by
  induction below with
  | self => exact whole
  | child member _ ih => exact ih (unambiguous_item whole member)

theorem distinct_propsAt (whole : v.Unambiguous) : (propsAt v).names.Nodup := by
  unfold propsAt
  cases found : field? v "props" with
  | none => exact List.nodup_nil
  | some w =>
    cases w with
    | object fields => exact (Value.unambiguous_object.mp (unambiguous_field whole found)).1
    | _ => exact List.nodup_nil

/-- The type of an accepted node is a kind, and its props are allowed for that kind. -/
theorem allowed_propsAt (node : Grammar.IsNode level v) : ∃ kind : Kind,
    field? v "type" = some (.str kind.name) ∧ ∀ name ∈ (propsAt v).names, name ∈ kind.spec.allowed := by
  have allowed {kind : Kind} {o : Option Value} (has : Grammar.HasProps kind o) :
      ∀ name ∈ Table.names ((o.bind Value.fields?).getD []), name ∈ kind.spec.allowed := by
    cases has with
    | absent | null => exact List.forall_mem_nil _
    | table fits => exact fits.allowed
  cases node with
  | leaf _ type props _ | parent _ type props _ _ => exact ⟨_, type, allowed props⟩

/-- The projection of the raw props of an accepted node drops none of them. -/
theorem perm_projectRaw (node : Grammar.IsNode level v) (whole : v.Unambiguous) : ∃ kind : Kind,
    field? v "type" = some (.str kind.name) ∧
      (projectRaw (.str kind.name) ((field? v "props").getD .null)).Perm (propsAt v) := by
  obtain ⟨kind, type, allowed⟩ := allowed_propsAt node
  have known : Kind.ofValue? (.str kind.name) = some kind := Kind.named?_name kind
  have perm := Spec.perm_project kind.nodup_allowed (distinct_propsAt whole)
  rw [Spec.allowedPart_eq_self allowed] at perm
  refine ⟨kind, type, ?_⟩
  rw [projectRaw_propsAt, known]
  exact perm

/-! ### Lines of nodes -/

theorem map_eq_ok {ε α β : Type} {x : Except ε α} {f : α → β} {b : β} :
    x.map f = .ok b ↔ ∃ a, x = .ok a ∧ f a = b := by
  cases x <;> simp [Except.map]

theorem line_written {l : String} {ls : List String} (among : l ∈ ls) : l.toList <:+: written ls := by
  obtain ⟨before, after, rfl⟩ := List.append_of_mem among
  exact ⟨written before ++ ['\n'], written after, by simp [written]⟩

/-- The node has a tag, and a line that begins with it. -/
def HasLine (w : Value) (ls : List String) : Prop :=
  ∃ t leaf depth, tag w = .ok t ∧ openingLine t leaf depth ∈ ls

theorem HasLine.cons {l : String} {ls : List String} : HasLine w ls → HasLine w (l :: ls) :=
  fun ⟨t, leaf, depth, tagged, among⟩ => ⟨t, leaf, depth, tagged, List.mem_cons_of_mem _ among⟩

/-- The renderer comes to every node below those on its stack. -/
theorem line_of_below {stack : List Entry} {ls : List String} (made : lines stack = .ok ls)
    (member : .opening v level ∈ stack) (below : Below v w) : HasLine w ls := by
  induction stack using lines.induct generalizing v level ls with
  | case1 => cases member
  | case2 type depth rest ih =>
    rw [lines] at made
    obtain ⟨later, made', rfl⟩ := map_eq_ok.mp made
    have pending : .opening v level ∈ rest := (List.mem_cons.mp member).resolve_left (by simp)
    exact (ih made' pending below).cons
  | case3 node depth rest o failed =>
    rw [lines, failed] at made
    cases made
  | case4 node depth rest t tagged children =>
    rename_i inner ih
    rw [lines, tagged] at made
    obtain ⟨later, made', rfl⟩ := map_eq_ok.mp made
    rcases List.mem_cons.mp member with same | pending
    · obtain ⟨rfl, rfl⟩ := Entry.opening.inj same
      cases below with
      | self => exact ⟨t, _, level, tagged, List.mem_cons_self⟩
      | @child _ c _ among below =>
        -- A node with children has them all on top of the stack, one level deeper.
        have some : ¬ children.isEmpty = true := by
          rw [List.isEmpty_iff]
          exact List.ne_nil_of_mem among
        have next : .opening c (level + 1) ∈ inner := by
          unfold inner
          rw [dif_neg some]
          exact List.mem_append_left _ (List.mem_map_of_mem among)
        exact (ih made' (List.mem_append_left _ next) below).cons
    · exact (ih made' (List.mem_append_right _ pending) below).cons

/-- A line of the code names the kind and sets every prop of the node to its value, in some order. -/
def ShowsProps (code : String) (kind : Kind) (v : Value) : Prop :=
  ∃ order texts, order.Perm (propsAt v) ∧ settings order = .ok texts ∧
    ("<" ++ String.intercalate " " (kind.name :: texts)).toList <:+: code.toList

/-- What is rendered shows a node as it stands in its tag. -/
theorem showsProps_of_rendered {importPath code : String} (rendered : render importPath c = .ok code)
    (node : NodeOf c v) (type : field? v "type" = some (.str kind.name))
    (perm : (projectRaw (.str kind.name) ((field? v "props").getD .null)).Perm (propsAt v)) :
    ShowsProps code kind v := by
  obtain ⟨ls, made, rfl⟩ := map_eq_ok.mp rendered
  obtain ⟨root, member, below⟩ := node
  obtain ⟨t, leaf, depth, tagged, among⟩ := line_of_below made (List.mem_map_of_mem member) below
  have name : textAt v "type" = kind.name := by
    rw [textAt, type]
    rfl
  rw [tag, name, type, Option.getD_some] at tagged
  obtain ⟨texts, set, rfl⟩ := map_eq_ok.mp tagged
  refine ⟨_, texts, perm, set, List.IsInfix.trans ?_ (List.IsInfix.trans (line_written among) ?_)⟩
  · refine ⟨(pad depth).toList, (if leaf then " />" else ">").toList, ?_⟩
    simp only [openingLine, String.toList_append, List.append_assoc]
  · rw [toList_moduleLines]
    have listed : written ls <:+: written ls ++ (('\n' :: (pad 2).toList) ++ '<' :: '/' :: closing.toList) :=
      (List.prefix_append _ _).isInfix
    have quoted := List.infix_cons (a := '"') (List.infix_cons (a := '>') listed)
    exact (quoted.trans (List.suffix_append _ _).isInfix).trans (List.suffix_append _ _).isInfix

end Untyped

open Untyped (NodeOf ShowsProps field? propsAt)

/-- For any kind and any props, what is projected are the allowed entries with their values, once each and in catalog
order; a second projection changes nothing, and two tables are projected alike exactly if they have the same allowed
entries in whatever order. Of the props of an accepted node, at any depth, the projection drops none, and no more does
the code. -/
theorem projection_exact :
    (∀ (kind : Kind) (props : Table Value), props.names.Nodup →
      let projected := projectRaw (.str kind.name) (.object props)
      Spec.Projection kind.spec props projected ∧
      projectRaw (.str kind.name) (.object projected) = projected ∧
      ∀ props' : Table Value, props'.names.Nodup →
        (projectRaw (.str kind.name) (.object props') = projected ↔
          (kind.spec.allowedPart props').Perm (kind.spec.allowedPart props))) ∧
    ∀ c : Value, c.Unambiguous → audit c = [] → ∀ v, NodeOf c v → ∃ kind : Kind,
      field? v "type" = some (.str kind.name) ∧
      (projectRaw (.str kind.name) ((field? v "props").getD .null)).Perm (propsAt v) ∧
      ∀ importPath g, generate importPath c = .ok g → ShowsProps g.code kind v := by
  constructor
  · intro kind props distinct
    simp only [Kind.projectRaw_name]
    have single := kind.nodup_allowed
    exact ⟨Spec.projection_project single distinct, Spec.project_project single props,
      fun _ distinct' => Spec.project_eq_iff single distinct' distinct⟩
  · intro c whole accepted v node
    obtain ⟨root, member, below⟩ := id node
    obtain ⟨level, isNode⟩ := Untyped.isNode_of_accepted accepted member below
    have whole' := Untyped.unambiguous_below (Untyped.unambiguous_item whole member) below
    obtain ⟨kind, type, perm⟩ := Untyped.perm_projectRaw isNode whole'
    refine ⟨kind, type, perm, fun importPath g made => ?_⟩
    rw [Untyped.generate_eq] at made
    exact Untyped.showsProps_of_rendered (Untyped.render_of_generate accepted made) node type perm

def strayProps : Table Value := [("size", .str "sm"), ("onClick", .int 1), ("label", .str "Go")]

def untidyButton : Value := .object [
  ("props", .object [("size", .str "sm"), ("label", .str "Go")]), ("children", .list []), ("type", .str "Button")]

theorem unambiguous_untidy : untidy.Unambiguous := by
  simp only [untidy, Value.unambiguous_object, Value.unambiguous_list, List.forall_mem_cons]
  refine ⟨by decide, .int 1, ⟨⟨by decide, .null, ⟨⟨by decide, ⟨by decide, .str _, .str _, ?_⟩, ?_, .str _, ?_⟩, ?_⟩,
    .int 7, .str _, ?_⟩, ?_⟩, .str _, ?_⟩
  all_goals exact List.forall_mem_nil _

theorem nodeOf_untidy : NodeOf untidy untidyButton :=
  ⟨_, List.mem_singleton_self _, .child (List.mem_singleton_self _) (.self _)⟩

def untidyPlan : Plan := ⟨"grid", [⟨.card, [], [⟨.button, [("size", .str "sm"), ("label", .str "Go")], []⟩]⟩]⟩

theorem generate_untidy (accepted : audit untidy = []) : ∃ g, generate defaultImportPath untidy = .ok g := by
  have read : Plan.read untidy = .ok untidyPlan := by with_unfolding_all rfl
  have set : lines (Job.openings 3 untidyPlan.components) = .ok (outlines 3 untidyPlan.components) := by
    rw [lines_eq_outlines]
    with_unfolding_all rfl
  rw [generate, accepted, read]
  dsimp only
  rw [renderPlan, body, set]
  exact ⟨_, rfl⟩

theorem projection_exact_untidy :
    strayProps.names.Nodup ∧ untidy.Unambiguous ∧ audit untidy = [] ∧ NodeOf untidy untidyButton ∧
      Spec.Projection Kind.button.spec strayProps (projectRaw (.str "Button") (.object strayProps)) ∧
      (projectRaw (.str "Button") (.object [("size", .str "sm"), ("label", .str "Go")])).Perm (propsAt untidyButton) ∧
      ∃ g, generate defaultImportPath untidy = .ok g ∧ ShowsProps g.code .button untidyButton := by
  have distinct : strayProps.names.Nodup := by decide
  have accepted : audit untidy = [] := by cbv
  obtain ⟨projection, -⟩ := projection_exact.1 .button strayProps distinct
  obtain ⟨kind, type, perm, shown⟩ :=
    projection_exact.2 untidy unambiguous_untidy accepted untidyButton nodeOf_untidy
  have button : field? untidyButton "type" = some (.str Kind.button.name) := rfl
  obtain rfl := Kind.name_inj (Value.str.inj (Option.some.inj (button.symm.trans type)))
  obtain ⟨g, made⟩ := generate_untidy accepted
  exact ⟨distinct, unambiguous_untidy, accepted, nodeOf_untidy, projection, perm, g, made, shown _ g made⟩

end ScreenPlan.Markup
