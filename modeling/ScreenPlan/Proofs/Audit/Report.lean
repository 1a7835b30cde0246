import Mathlib.Data.List.Basic
import ScreenPlan.Proofs.Audit.Grammar

/-!
# What an audit reports

`ofPlan` says which violations a candidate has and in which order, by recursion on the nodes: a node is refused as it
stands, or its own violations come first and then those of its children. The audit reports the same, and what lies
below a refused node makes no difference to it.
-/

namespace ScreenPlan.Report
open Grammar

/-! ### Props -/

def IsText (v : Value) : Prop := ∃ text, v = .str text

def IsTextList (v : Value) : Prop := ∃ texts, v = textList texts

def IsTextTable (v : Value) : Prop := ∃ rows : List (List String), v = .list (rows.map textList)

/-- The prop is a text, but none of the choices. -/
def Strays (props : Table Value) (prop : String) (choices : List String) : Prop :=
  ∃ text, props.get? prop = some (.str text) ∧ text ∉ choices

theorem strays_iff {props : Table Value} {prop text : String} {choices : List String}
    (known : props.get? prop = some (.str text)) : Strays props prop choices ↔ text ∉ choices := by
  constructor
  · rintro ⟨other, same, stray⟩
    cases known.symm.trans same
    exact stray
  · exact fun stray => ⟨text, known, stray⟩

instance : DecidablePred IsText := fun _ => decidable_of_iff _ isText_iff

instance : DecidablePred IsTextList := fun _ => decidable_of_iff _ isTextList_iff

instance : DecidablePred IsTextTable := fun _ => decidable_of_iff _ isTextTable_iff

instance (props : Table Value) (prop : String) (choices : List String) : Decidable (Strays props prop choices) :=
  match known : props.get? prop with
  | some (.str _) => decidable_of_iff _ (strays_iff known).symm
  | none | some .null | some (.bool _) | some (.int _) | some (.float _) | some (.list _) | some (.object _)
  | some (.foreign _) => .isFalse fun ⟨_, same, _⟩ => nomatch known.symm.trans same

/-- The violations of the props of a kind: by prop the names that it does not know, by its choices the texts that it
does not offer, again by prop what should be text, and last what a table lacks. -/
def ofTable (kind : Kind) (props : Table Value) (path : String) : List Violation :=
  (props.filter fun e => e.1 ∉ kind.spec.allowed).map (fun e =>
    ⟨path ++ ".props." ++ e.1, "is not allowed for " ++ kind.name ++ ".", .propNotAllowed⟩) ++
  (kind.spec.choices.filter fun e => Strays props e.1 e.2).map (fun e =>
    ⟨path ++ ".props." ++ e.1, "must be one of: " ++ String.intercalate ", " e.2 ++ ".", .valueNotAllowed⟩) ++
  (props.filter fun e => e.1 ∈ textProps ∧ ¬ IsText e.2).map (fun e =>
    ⟨path ++ ".props." ++ e.1, "must be a string.", .notAString⟩) ++
  if kind = .table then
    (if ∃ headers ∈ props.get? "headers", IsTextList headers then []
      else [⟨path ++ ".props.headers", "must be an array of strings.", .tableShape⟩]) ++
    if ∃ rows ∈ props.get? "rows", IsTextTable rows then []
      else [⟨path ++ ".props.rows", "must be an array of string arrays.", .tableShape⟩]
  else []

def ofProps (kind : Kind) (props : Option Value) (path : String) : List Violation :=
  match props with
  | none | some .null => ofTable kind [] path
  | some (.object props) => ofTable kind props path
  | some _ => [⟨path ++ ".props", "must be an object when provided.", .notAnObject⟩]

/-! ### Nodes and plans -/

/-- The violations of a node at a level and of the nodes below it. -/
def ofNode (level : Nat) (path : String) (node : Value) : List Violation :=
  if 64 < level then [⟨path, "must not be nested more than 64 levels deep.", .tooDeep⟩]
  else
    match node with
    | .object fields =>
      match (Table.get? fields "type").bind Kind.ofValue? with
      | none => [⟨path ++ ".type", "must be a whitelisted component.", .unknownKind⟩]
      | some kind =>
        ofProps kind (Table.get? fields "props") path ++
          match Table.get? fields "children" with
          | none => []
          | some (.list children) =>
            children.zipIdx.flatMap fun e => ofNode (level + 1) (path ++ ".children[" ++ toString e.2 ++ "]") e.1
          | some _ => [⟨path ++ ".children", "must be an array when provided.", .notAnArray⟩]
    | _ => [⟨path, "must be an object.", .notAnObject⟩]
termination_by 65 - level

def IsLayout (layout : Option Value) : Prop := ∃ text ∈ layoutVariants, layout = some (.str text)

instance : DecidablePred IsLayout := fun _ => decidable_of_iff _ layoutViolations_eq_nil

/-- The violations of a candidate plan. -/
def ofPlan (candidate : Value) : List Violation :=
  match candidate with
  | .object fields =>
    (if IsLayout (Table.get? fields "layout") then []
      else [⟨"Plan.layout", "must be one of: grid, flex, sidebar-layout.", .invalidLayout⟩]) ++
      match Table.get? fields "components" with
      | some (.list components) =>
        components.zipIdx.flatMap fun e => ofNode 1 ("components[" ++ toString e.2 ++ "]") e.1
      | _ => [⟨"Plan.components", "must be an array.", .notAnArray⟩]
  | _ => [⟨"Plan", "must be an object.", .notAnObject⟩]

/-! ### The audit -/

theorem filterMap_ite {α β : Type} (p : α → Prop) [DecidablePred p] (f : α → β) (l : List α) :
    (l.filterMap fun a => if p a then some (f a) else none) = (l.filter fun a => p a).map f := by
  induction l with
  | nil => rfl
  | cons a l ih =>
    by_cases holds : p a <;> simp [holds, ih]

theorem disallowed_eq (kind : Kind) (props : Table Value) (path : String) :
    Audit.disallowed kind props path = (props.filter fun e => e.1 ∉ kind.spec.allowed).map fun e =>
      ⟨path ++ ".props." ++ e.1, "is not allowed for " ++ kind.name ++ ".", .propNotAllowed⟩ := by
  rw [← filterMap_ite, Audit.disallowed]
  refine List.filterMap_congr fun e _ => ?_
  by_cases known : e.1 ∈ kind.spec.allowed
  · rw [if_neg (not_not.mpr known)]
    exact if_pos (decide_eq_true known)
  · rw [if_pos known]
    exact if_neg fun allowed => known (of_decide_eq_true allowed)

theorem misused_eq (kind : Kind) (props : Table Value) (path : String) :
    Audit.misused kind props path = (kind.spec.choices.filter fun e => Strays props e.1 e.2).map fun e =>
      ⟨path ++ ".props." ++ e.1, "must be one of: " ++ String.intercalate ", " e.2 ++ ".", .valueNotAllowed⟩ := by
  rw [← filterMap_ite, Audit.misused]
  refine List.filterMap_congr fun e _ => ?_
  obtain ⟨prop, choices⟩ := e
  dsimp only
  split
  · next text known =>
    rw [if_congr (strays_iff known) rfl rfl, ite_not]
    rfl
  · next other =>
    rw [if_neg]
    rintro ⟨text, known, -⟩
    exact other text known

theorem untexted_eq (props : Table Value) (path : String) :
    Audit.untexted props path = (props.filter fun e => e.1 ∈ textProps ∧ ¬ IsText e.2).map fun e =>
      ⟨path ++ ".props." ++ e.1, "must be a string.", .notAString⟩ := by
  rw [← filterMap_ite, Audit.untexted]
  refine List.filterMap_congr fun e _ => ?_
  refine if_congr (and_congr_right fun _ => not_congr ?_) rfl rfl
  exact isText_iff

theorem misshapen_eq (kind : Kind) (props : Table Value) (path : String) :
    Audit.misshapen kind props path =
      if kind = .table then
        (if ∃ headers ∈ props.get? "headers", IsTextList headers then []
          else [⟨path ++ ".props.headers", "must be an array of strings.", .tableShape⟩]) ++
        if ∃ rows ∈ props.get? "rows", IsTextTable rows then []
          else [⟨path ++ ".props.rows", "must be an array of string arrays.", .tableShape⟩]
      else [] := by
  have headers : (props.get? "headers").any Audit.isTextList = true ↔
      ∃ headers ∈ props.get? "headers", IsTextList headers := by
    rw [Option.any_eq_true]
    exact exists_congr fun _ => and_congr_right fun _ => isTextList_iff
  have rows : (props.get? "rows").any Audit.isTextTable = true ↔ ∃ rows ∈ props.get? "rows", IsTextTable rows := by
    rw [Option.any_eq_true]
    exact exists_congr fun _ => and_congr_right fun _ => isTextTable_iff
  have place (prop place : String) (literal : ".props." ++ prop = place) :
      Audit.propPath path prop = path ++ place := by
    rw [Audit.propPath, String.append_assoc, literal]
  rw [Audit.misshapen, place "headers" ".props.headers" rfl, place "rows" ".props.rows" rfl]
  simp only [headers, rows]

theorem propViolations_eq (kind : Kind) (props : Table Value) (path : String) :
    Audit.propViolations kind props path = ofTable kind props path := by
  rw [Audit.propViolations, ofTable, disallowed_eq, misused_eq, untexted_eq, misshapen_eq]

theorem propsViolations_eq (kind : Kind) (props : Option Value) (path : String) :
    Audit.propsViolations kind props path = ofProps kind props path := by
  cases props with
  | none => exact propViolations_eq kind [] path
  | some v =>
    cases v with
    | null => exact propViolations_eq kind [] path
    | object props => exact propViolations_eq kind props path
    | _ => rfl

theorem forest_eq_flatMap (pathOf : Nat → String) (level start : Nat) (vs : List Value) :
    Audit.forest pathOf level start vs = (vs.zipIdx start).flatMap fun e => Audit.tree level (pathOf e.2) e.1 := by
  induction vs generalizing start with
  | nil => exact Audit.forest_nil pathOf level start
  | cons v vs ih => rw [Audit.forest_cons, ih, List.zipIdx_cons, List.flatMap_cons]

/-- What the walk lists for a node and everything below it. -/
theorem tree_eq (level : Nat) (path : String) (v : Value) : Audit.tree level path v = ofNode level path v := by
  induction v using Audit.children_induction generalizing level path with
  | step v ih =>
    rw [ofNode.eq_def]
    by_cases deep : 64 < level
    · rw [if_pos deep, Audit.tree_of_tooDeep deep]
      rfl
    have below : ∀ e ∈ (Audit.childrenOf v).zipIdx, Audit.tree (level + 1) (Audit.childPath path e.2) e.1 =
        ofNode (level + 1) (Audit.childPath path e.2) e.1 :=
      fun e member => ih e.1 (List.fst_mem_of_mem_zipIdx member) _ _
    rw [if_neg deep, Audit.tree_of_le (Nat.le_of_not_lt deep), forest_eq_flatMap, List.flatMap_congr below]
    cases v with
    | object fields =>
      dsimp only [Audit.nodeViolations, Audit.childrenOf]
      cases (Table.get? fields "type").bind Kind.ofValue? with
      | none => rfl
      | some kind =>
        dsimp only
        rw [propsViolations_eq, List.append_assoc]
        cases Table.get? fields "children" with
        | none => rfl
        | some children => cases children <;> rfl
    | _ => rfl

theorem audit_eq (candidate : Value) : audit candidate = ofPlan candidate := by
  have layout (v : Option Value) : Audit.layoutViolations v =
      if IsLayout v then [] else [⟨"Plan.layout", "must be one of: grid, flex, sidebar-layout.", .invalidLayout⟩] := by
    by_cases offered : IsLayout v
    · rw [if_pos offered]
      exact layoutViolations_eq_nil.mpr offered
    · rw [if_neg offered, Audit.layoutViolations.eq_def]
      split
      · next text =>
        rw [if_neg fun listed => offered ⟨text, listed, rfl⟩]
        rfl
      · rfl
  cases candidate with
  | object fields =>
    rw [audit_object, ofPlan, layout]
    cases Table.get? fields "components" with
    | none => rfl
    | some components =>
      cases components with
      | list components =>
        dsimp only
        rw [forest_eq_flatMap]
        simp only [tree_eq]
        rfl
      | _ => rfl
  | _ => rfl

/-! ### Refused nodes -/

/-- The node is refused as it stands, whatever else it says. -/
inductive Refused : Nat → Value → ViolationCode → Prop
  | deep {level : Nat} {v : Value} (deep : 64 < level) : Refused level v .tooDeep
  | plain {level : Nat} {v : Value} (shallow : level ≤ 64) (plain : ∀ fields, v ≠ .object fields) :
      Refused level v .notAnObject
  | unknown {level : Nat} {fields : Table Value} (shallow : level ≤ 64)
      (unknown : ∀ kind : Kind, fields.get? "type" ≠ some (.str kind.name)) : Refused level (.object fields) .unknownKind

/-- The one violation of a refused node. -/
def refusal (path : String) : ViolationCode → Violation
  | .tooDeep => ⟨path, "must not be nested more than 64 levels deep.", .tooDeep⟩
  | .unknownKind => ⟨path ++ ".type", "must be a whitelisted component.", .unknownKind⟩
  | code => ⟨path, "must be an object.", code⟩

/-- The same but for what lies below refused nodes, and for fields that no node has. -/
inductive Agree : Nat → Value → Value → Prop
  | refused {level : Nat} {v w : Value} {code : ViolationCode} (first : Refused level v code)
      (second : Refused level w code) : Agree level v w
  | leaf {level : Nat} {fields fields' : Table Value} (type : fields.get? "type" = fields'.get? "type")
      (props : fields.get? "props" = fields'.get? "props")
      (children : fields.get? "children" = fields'.get? "children") : Agree level (.object fields) (.object fields')
  | parent {level : Nat} {fields fields' : Table Value} {children children' : List Value}
      (type : fields.get? "type" = fields'.get? "type") (props : fields.get? "props" = fields'.get? "props")
      (listed : fields.get? "children" = some (.list children))
      (listed' : fields'.get? "children" = some (.list children'))
      (length : children.length = children'.length)
      (each : ∀ e ∈ children.zip children', Agree (level + 1) e.1 e.2) : Agree level (.object fields) (.object fields')

/-- The same layout, and components that agree. -/
inductive AgreePlan : Value → Value → Prop
  | root {fields fields' : Table Value} {components components' : List Value}
      (layout : fields.get? "layout" = fields'.get? "layout")
      (listed : fields.get? "components" = some (.list components))
      (listed' : fields'.get? "components" = some (.list components'))
      (length : components.length = components'.length)
      (each : ∀ e ∈ components.zip components', Agree 1 e.1 e.2) : AgreePlan (.object fields) (.object fields')

theorem ofNode_of_refused {level : Nat} {v : Value} {code : ViolationCode} (refused : Refused level v code)
    (path : String) : ofNode level path v = [refusal path code] := by
  rw [ofNode.eq_def]
  cases refused with
  | deep deep => rw [if_pos deep, refusal]
  | plain shallow plain =>
    rw [if_neg (Nat.not_lt.mpr shallow)]
    cases v with
    | object fields => exact (plain fields rfl).elim
    | _ => rfl
  | @unknown fields shallow unknown =>
    have foreign : (Table.get? fields "type").bind Kind.ofValue? = none := by
      rw [Option.bind_eq_none_iff]
      intro type found
      cases named : Kind.ofValue? type with
      | none => rfl
      | some kind => exact (unknown kind (found.trans (congrArg some (ofValue?_iff.mp named)))).elim
    rw [if_neg (Nat.not_lt.mpr shallow)]
    dsimp only
    rw [foreign, refusal]

theorem flatMap_zipIdx_congr (f : Value → Nat → List Violation) {vs ws : List Value} (length : vs.length = ws.length)
    (each : ∀ e ∈ vs.zip ws, ∀ i, f e.1 i = f e.2 i) (start : Nat) :
    (vs.zipIdx start).flatMap (fun e => f e.1 e.2) = (ws.zipIdx start).flatMap fun e => f e.1 e.2 := by
  induction vs generalizing ws start with
  | nil => rw [List.eq_nil_of_length_eq_zero length.symm]
  | cons v vs ih =>
    obtain ⟨w, ws, rfl⟩ := List.exists_cons_of_length_eq_add_one length.symm
    rw [List.zip_cons_cons, List.forall_mem_cons] at each
    obtain ⟨first, later⟩ := each
    rw [List.zipIdx_cons, List.zipIdx_cons, List.flatMap_cons, List.flatMap_cons, ih (Nat.succ.inj length) later]
    exact congrArg (· ++ _) (first start)

theorem ofNode_of_agree {level : Nat} {v w : Value} (agree : Agree level v w) (path : String) :
    ofNode level path v = ofNode level path w := by
  induction agree generalizing path with
  | refused first second => rw [ofNode_of_refused first, ofNode_of_refused second]
  | @leaf level fields fields' type props children =>
    rw [ofNode.eq_def, ofNode.eq_def level path (.object fields')]
    dsimp only
    rw [type, props, children]
  | @parent level fields fields' children children' type props listed listed' length each ih =>
    have below := flatMap_zipIdx_congr (fun c i => ofNode (level + 1) (path ++ ".children[" ++ toString i ++ "]") c)
      length (fun e member i => ih e member _) 0
    rw [ofNode.eq_def, ofNode.eq_def level path (.object fields')]
    dsimp only
    rw [type, props, listed, listed']
    dsimp only
    rw [below]

theorem ofPlan_of_agree {candidate candidate' : Value} (agree : AgreePlan candidate candidate') :
    ofPlan candidate = ofPlan candidate' := by
  cases agree with
  | root layout listed listed' length each =>
    have below := flatMap_zipIdx_congr (fun c i => ofNode 1 ("components[" ++ toString i ++ "]") c)
      length (fun e member i => ofNode_of_agree (each e member) _) 0
    rw [ofPlan, ofPlan, layout, listed, listed']
    dsimp only
    rw [below]

/-- The audit of any candidate lists the violations of the root, then those of every node before those of its
children, with a single one for a refused node; and what lies below a refused node makes no difference. -/
theorem audit_reports : (∀ candidate, audit candidate = ofPlan candidate) ∧
    ∀ candidate candidate', AgreePlan candidate candidate' → audit candidate = audit candidate' := by
  refine ⟨audit_eq, fun candidate candidate' agree => ?_⟩
  rw [audit_eq, audit_eq, ofPlan_of_agree agree]

def spinner (below : List Value) : Value := .object [("type", .str "Spinner"), ("children", .list below)]

def spinnerPlan (below : List Value) : Value :=
  .object [("layout", .str "grid"), ("components", .list [spinner below])]

theorem refused_spinner (below : List Value) : Refused 1 (spinner below) .unknownKind := by
  refine .unknown (by decide) fun kind same => ?_
  have named : "Spinner" = kind.name := Value.str.inj (Option.some.inj same)
  revert named
  cases kind <;> decide

/-- There is one violation, although what stands below the node is no node at all. -/
theorem audit_reports_spinner :
    AgreePlan (spinnerPlan []) (spinnerPlan [.null]) ∧
      audit (spinnerPlan [.null]) = audit (spinnerPlan []) ∧
      audit (spinnerPlan []) = [⟨"components[0].type", "must be a whitelisted component.", .unknownKind⟩] := by
  have agree : AgreePlan (spinnerPlan []) (spinnerPlan [.null]) := by
    refine .root rfl rfl rfl rfl fun e member => ?_
    obtain rfl := List.mem_singleton.mp member
    exact .refused (refused_spinner []) (refused_spinner [.null])
  refine ⟨agree, (audit_reports.2 _ _ agree).symm, ?_⟩
  have arranged : IsLayout (some (.str "grid")) := ⟨"grid", by decide, rfl⟩
  have only := ofNode_of_refused (refused_spinner []) "components[0]"
  rw [audit_reports.1]
  show (if IsLayout (some (.str "grid")) then [] else _) ++ (ofNode 1 "components[0]" (spinner []) ++ []) = _
  rw [if_pos arranged, only]
  rfl

end ScreenPlan.Report
