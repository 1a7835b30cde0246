import Mathlib.Data.List.Forall2
import ScreenPlan.Proofs.Markup.ReadBack
import ScreenPlan.Proofs.Markup.StandIn
import ScreenPlan.Proofs.Plan.Gate

/-!
# Rendering a candidate as it is

`generate` renders the plan that is read from a candidate. The renderer here reads no plan: it takes the candidate
itself, in which props may be null, props and children missing and any other keys present. `generate_eq` shows that
the two write the same modules.
-/

namespace ScreenPlan.Markup
namespace Untyped

/-! ### The renderer -/

def field? (v : Value) (name : String) : Option Value := v.fields?.bind (Table.get? · name)

def textAt (v : Value) (name : String) : String := ((field? v name).bind Value.text?).getD ""

def itemsAt (v : Value) (name : String) : List Value := ((field? v name).bind Value.items?).getD []

/-- What stands between the brackets of a node's opening tag; raw props are projected once more. -/
def tag (node : Value) : Except Json.Obstacle String :=
  let props := projectRaw ((field? node "type").getD .null) ((field? node "props").getD .null)
  (settings props).map fun as => String.intercalate " " (textAt node "type" :: as)

inductive Entry where
  | opening (node : Value) (level : Nat)
  | closing (type : String) (level : Nat)

def Entry.openings (level : Nat) (nodes : List Value) : List Entry := nodes.map fun v => .opening v level

noncomputable def Entry.weight : Entry → Nat
  | .opening node _ => 2 * sizeOf node
  | .closing _ _ => 1

noncomputable def Entry.weights : List Entry → Nat
  | [] => 0
  | e :: rest => e.weight + weights rest

theorem weights_append (es rest : List Entry) :
    Entry.weights (es ++ rest) = Entry.weights es + Entry.weights rest := by
  induction es with
  | nil => simp [Entry.weights]
  | cons e es ih =>
    rw [List.cons_append, Entry.weights, ih, Entry.weights]
    omega

theorem weights_openings_le (level : Nat) (nodes : List Value) :
    Entry.weights (Entry.openings level nodes) + 2 ≤ 2 * sizeOf nodes := by
  induction nodes with
  | nil => simp [Entry.openings, Entry.weights]
  | cons v vs ih =>
    simp only [Entry.openings, List.map_cons, Entry.weights, Entry.weight, List.cons.sizeOf_spec] at ih ⊢
    omega

theorem sizeOf_itemsAt_le (v : Value) (name : String) : sizeOf (itemsAt v name) ≤ sizeOf v := by
  unfold itemsAt field?
  cases v with
  | object fields =>
    simp only [Value.fields?, Option.bind_some]
    cases found : Table.get? fields name with
    | none => exact Value.sizeOf_pos _
    | some w =>
      cases w with
      | list xs =>
        have := Value.sizeOf_lt_of_get? found
        simp only [Option.bind_some, Value.items?, Option.getD_some, Value.list.sizeOf_spec] at this ⊢
        omega
      | _ => exact Value.sizeOf_pos _
  | _ => exact Value.sizeOf_pos _

/-- Works off a stack of entries, as the renderer of plans does. -/
def lines : List Entry → Except Json.Obstacle (List String)
  | [] => .ok []
  | .closing type level :: rest => (lines rest).map ((pad level ++ "</" ++ type ++ ">") :: ·)
  | .opening node level :: rest =>
    match tag node with
    | .error o => .error o
    | .ok t =>
      let children := itemsAt node "children"
      let line := openingLine t children.isEmpty level
      let inner := if children.isEmpty then []
        else Entry.openings (level + 1) children ++ [.closing (textAt node "type") level]
      (lines (inner ++ rest)).map (line :: ·)
termination_by stack => Entry.weights stack
decreasing_by
  · simp only [Entry.weights, Entry.weight]
    omega
  · have := weights_openings_le (level + 1) (itemsAt node "children")
    have := sizeOf_itemsAt_le node "children"
    have := Value.sizeOf_pos node
    split <;> simp only [List.nil_append, weights_append, Entry.weights, Entry.weight] <;> omega

def render (importPath : String) (candidate : Value) : Except Json.Obstacle String :=
  (lines (Entry.openings 3 (itemsAt candidate "components"))).map fun body =>
    String.intercalate "\n" (moduleLines importPath (textAt candidate "layout") body)

def generate (importPath : String) (candidate : Value) : Except Json.Obstacle Generated :=
  match audit candidate with
  | [] => (render importPath candidate).map fun code => ⟨code, true⟩
  | violations => .ok ⟨diagnostic (errorTexts violations), false⟩

/-! ### The two renderers side by side -/

/-- The entry is for the same node, or the same closing tag, as the job. -/
inductive Entry.Matches : Entry → Job → Prop
  | opening {v : Value} {n : Node} (form : n.data = Form.node Form.untouched v) (level : Nat) :
      Matches (.opening v level) (.opening n level)
  | closing (kind : Kind) (level : Nat) : Matches (.closing kind.name level) (.closing kind level)

theorem get?_of_getD {o : Option Value} {text : String} (same : .str text = o.getD .null) : o = some (.str text) := by
  cases o with
  | none => cases same
  | some v => exact congrArg some same.symm

variable {v : Value} {kind : Kind} {props : Table Value} {children : List Node}

/-- What a node and a candidate of its form have in common. -/
structure Alike (v : Value) (kind : Kind) (props : Table Value) (children : List Node) : Prop where
  type : field? v "type" = some (.str kind.name)
  props : projectRaw (.str kind.name) ((field? v "props").getD .null) = kind.spec.project props
  children : Node.dataAll children = (itemsAt v "children").map (Form.node Form.untouched)

theorem dataAll_of_listed {o : Option Value} {ns : List Node}
    (form : .list (Node.dataAll ns) = (o.map (Form.listed Form.untouched)).getD (.list [])) :
    Node.dataAll ns = ((o.bind Value.items?).getD []).map (Form.node Form.untouched) := by
  cases o with
  | none => exact Value.list.inj form
  | some v =>
    cases v with
    | list vs =>
      rw [Option.map_some, Form.listed_list] at form
      exact Value.list.inj form
    | _ =>
      rw [Option.map_some, Form.listed_of_no_items rfl] at form
      cases form

theorem project_of_given {o : Option Value} (form : .object props = Form.given o) :
    projectRaw (.str kind.name) (o.getD .null) = kind.spec.project props := by
  have known : Kind.ofValue? (.str kind.name) = some kind := Kind.named?_name kind
  unfold projectRaw
  rw [known]
  cases o with
  | none =>
    obtain rfl := Value.object.inj form
    exact kind.spec.project_nil.symm
  | some v =>
    cases v with
    | null =>
      obtain rfl := Value.object.inj form
      exact kind.spec.project_nil.symm
    | object fs =>
      obtain rfl := Value.object.inj form
      rfl
    | _ => cases form

theorem alike_of_form (form : Node.data ⟨kind, props, children⟩ = Form.node Form.untouched v) :
    Alike v kind props children := by
  rw [Node.data] at form
  cases v with
  | object fields =>
    rw [Form.node, Form.arrange_untouched, Form.children_eq] at form
    simp only [Value.object.injEq, List.cons.injEq, Prod.mk.injEq, true_and, and_true] at form
    obtain ⟨type, given, listed⟩ := form
    exact ⟨get?_of_getD type, project_of_given given, dataAll_of_listed listed⟩
  | _ =>
    rw [Form.node_of_no_fields rfl] at form
    cases form

theorem forall₂_openings {level : Nat} {vs : List Value} {ns : List Node}
    (form : Node.dataAll ns = vs.map (Form.node Form.untouched)) :
    List.Forall₂ Entry.Matches (Entry.openings level vs) (Job.openings level ns) := by
  induction ns generalizing vs with
  | nil =>
    rw [Node.dataAll] at form
    rw [List.map_eq_nil_iff.mp form.symm]
    exact .nil
  | cons n ns ih =>
    rw [Node.dataAll] at form
    obtain ⟨v, vs, rfl, first, rest⟩ := List.map_eq_cons_iff.mp form.symm
    exact .cons (.opening first.symm level) (ih rest.symm)

theorem Alike.name_eq (alike : Alike v kind props children) : textAt v "type" = kind.name := by
  rw [textAt, alike.type]
  rfl

theorem Alike.tag_eq (alike : Alike v kind props children) : tag v = Markup.tag ⟨kind, props, children⟩ := by
  unfold tag Markup.tag
  rw [alike.name_eq, alike.type, Option.getD_some, alike.props]

theorem Alike.isEmpty_eq (alike : Alike v kind props children) :
    (itemsAt v "children").isEmpty = children.isEmpty := by
  have same := congrArg List.isEmpty alike.children
  rw [List.isEmpty_map] at same
  rw [← same]
  cases children <;> rfl

theorem lines_eq {entries : List Entry} {jobs : List Job} (aligned : List.Forall₂ Entry.Matches entries jobs) :
    lines entries = Markup.lines jobs := by
  induction jobs using Markup.lines.induct generalizing entries with
  | case1 =>
    cases aligned
    rw [lines, Markup.lines]
  | case2 kind level rest ih =>
    obtain _ | ⟨⟨⟩, below⟩ := aligned
    rw [lines, Markup.lines, ih below]
    rfl
  | case3 kind props children level rest o failed =>
    obtain _ | ⟨⟨form⟩, below⟩ := aligned
    rw [lines, Markup.lines, (alike_of_form form).tag_eq, failed]
  | case4 kind props children level rest t tagged inner =>
    -- The node's own entries go on top of stacks that are aligned already.
    rename_i ih
    obtain _ | ⟨⟨form⟩, below⟩ := aligned
    have alike := alike_of_form form
    rw [lines, Markup.lines, alike.tag_eq, tagged]
    dsimp only
    rw [alike.isEmpty_eq, alike.name_eq, ih]
    · rfl
    refine List.rel_append ?_ below
    cases children with
    | nil => exact .nil
    | cons => exact List.rel_append (forall₂_openings alike.children) (.cons (.closing kind level) .nil)

theorem alike_of_read {c : Value} {p : Plan} (plan : Grammar.IsPlan c) (read : Plan.read c = .ok p) :
    textAt c "layout" = p.layout ∧
      Node.dataAll p.components = (itemsAt c "components").map (Form.node Form.untouched) := by
  have form := Plan.data_of_read plan read Form.untouched
  rw [Plan.arranged_untouched, Plan.data] at form
  obtain ⟨variant, arranged, listed⟩ := plan
  rw [Form.plan, arranged, listed] at form
  simp only [Option.getD_some, Option.map_some, Form.listed_list, Value.object.injEq, List.cons.injEq,
    Prod.mk.injEq, Value.str.injEq, Value.list.injEq, true_and, and_true] at form
  refine ⟨?_, ?_⟩
  · rw [form.1, textAt, field?, Value.fields?, Option.bind_some, arranged]
    rfl
  · rw [form.2, itemsAt, field?, Value.fields?, Option.bind_some, listed]
    rfl

/-! ### One module -/

/-- Whether the plan is read first or the candidate rendered as it is, the code is the same, and so is the
diagnostic of a candidate that is not admitted. -/
theorem generate_eq (importPath : String) (c : Value) : Markup.generate importPath c = generate importPath c := by
  by_cases clean : audit c = []
  · have plan := Grammar.audit_eq_nil.mp clean
    obtain ⟨p, read, -⟩ := Plan.read_ok plan
    obtain ⟨arranged, listed⟩ := alike_of_read plan read
    rw [Markup.generate, generate, clean, read]
    dsimp only
    rw [render, arranged, lines_eq (forall₂_openings listed)]
    rfl
  · rw [generate_rejected clean, generate]
    split
    · next nothing => exact (clean nothing).elim
    · rfl

theorem render_of_generate {importPath : String} {c : Value} {g : Generated} (clean : audit c = [])
    (made : generate importPath c = .ok g) : render importPath c = .ok g.code := by
  rw [generate, clean] at made
  dsimp only at made
  cases rendered : render importPath c with
  | error =>
    rw [rendered] at made
    cases made
  | ok code =>
    rw [rendered] at made
    exact congrArg (fun g : Generated => Except.ok g.code) (Except.ok.inj made)

end Untyped

/-! ### The second audit -/

/-- A module begins with an import, a stand-in with a comment. -/
theorem head?_renderPlan {importPath code : String} {p : Plan} (rendered : renderPlan importPath p = .ok code) :
    code.toList.head? = some 'i' := by
  unfold renderPlan at rendered
  cases made : body p.components with
  | error =>
    rw [made] at rendered
    cases rendered
  | ok ls =>
    rw [made] at rendered
    obtain rfl := Except.ok.inj rendered
    show (String.intercalate "\n" (moduleLines importPath p.layout ls)).toList.head? = _
    rw [moduleLines]
    simp only [List.cons_append, toList_intercalate_lines]
    rfl

theorem renderPlan_ne_diagnostic {importPath code : String} {p : Plan} (rendered : renderPlan importPath p = .ok code)
    (errors : List String) : code ≠ diagnostic errors := by
  rintro rfl
  have first := head?_renderPlan rendered
  rw [toList_diagnostic] at first
  cases first

/-- The second audit finds nothing in what passed the first, so an accepted plan is rendered, and as its candidate
is. -/
theorem generate_accepted {c : Value} {p : Plan} {g : Generated} {importPath : String} (json : c.IsJson)
    (accepted : accept c = .ok p) (made : generatePlan importPath p = .ok g) :
    generate importPath c = .ok g ∧ g.rendered = true ∧ renderPlan importPath p = .ok g.code := by
  by_cases shallow : p.Shallow
  · have written := Plan.payload_of_shallow shallow
    obtain ⟨clean, read⟩ := accept_eq_ok.mp accepted
    obtain ⟨-, clean', read'⟩ := payload_of_accepted json accepted written
    rw [generatePlan, written] at made
    dsimp only at made
    rw [generate, clean', read'] at made
    dsimp only at made
    cases rendered : renderPlan importPath p with
    | error =>
      rw [rendered] at made
      cases made
    | ok code =>
      rw [rendered] at made
      obtain rfl := Except.ok.inj made
      refine ⟨?_, rfl, rfl⟩
      rw [generate, clean, read]
      dsimp only
      rw [rendered]
      rfl
  · rw [generatePlan, Plan.payload_of_not_shallow shallow] at made
    cases made

end ScreenPlan.Markup
