import ScreenPlan.Proofs.Audit.Walk

/-!
# The grammar of plans

`IsPlan` says which values are plans, without a word about paths, messages or the order in which
anything is looked at. `audit_eq_nil` shows that the audit finds nothing wrong with exactly these.
-/

namespace ScreenPlan.Grammar
open Audit

def textList (texts : List String) : Value := .list (texts.map .str)

/-- What the catalog asks of the props of a kind. Only text can break a rule of choice. -/
structure FitsKind (kind : Kind) (props : Table Value) : Prop where
  allowed : ∀ key ∈ props.names, key ∈ kind.spec.allowed
  chosen : ∀ prop choices text, (prop, choices) ∈ kind.spec.choices →
    props.get? prop = some (.str text) → text ∈ choices
  texts : ∀ key v, (key, v) ∈ props → key ∈ textProps → ∃ text, v = .str text
  shaped : kind = .table → (∃ headers, props.get? "headers" = some (textList headers)) ∧
    ∃ rows : List (List String), props.get? "rows" = some (.list (rows.map textList))

/-- The props of a node: none, null or a table. The first two are judged like an empty table. -/
inductive HasProps (kind : Kind) : Option Value → Prop
  | absent (fits : FitsKind kind []) : HasProps kind none
  | null (fits : FitsKind kind []) : HasProps kind (some .null)
  | table {props : Table Value} (fits : FitsKind kind props) : HasProps kind (some (.object props))

/-- The nodes that may stand at a level. Null is no list of children. -/
inductive IsNode : Nat → Value → Prop
  | leaf {level : Nat} {fields : Table Value} {kind : Kind} (shallow : level ≤ maxLevel)
      (type : fields.get? "type" = some (.str kind.name))
      (props : HasProps kind (fields.get? "props"))
      (bare : fields.get? "children" = none) : IsNode level (.object fields)
  | parent {level : Nat} {fields : Table Value} {kind : Kind} {children : List Value}
      (shallow : level ≤ maxLevel)
      (type : fields.get? "type" = some (.str kind.name))
      (props : HasProps kind (fields.get? "props"))
      (listed : fields.get? "children" = some (.list children))
      (each : ∀ child ∈ children, IsNode (level + 1) child) : IsNode level (.object fields)

inductive IsPlan : Value → Prop
  | root {fields : Table Value} {layout : String} {components : List Value}
      (variant : layout ∈ layoutVariants)
      (arranged : fields.get? "layout" = some (.str layout))
      (listed : fields.get? "components" = some (.list components))
      (each : ∀ node ∈ components, IsNode 1 node) : IsPlan (.object fields)

/-! ### Texts, lists of texts, tables of texts -/

theorem isText_iff {v : Value} : v.isText = true ↔ ∃ text, v = .str text := by
  cases v <;> simp [Value.isText, Value.text?]

theorem isTextList_iff {v : Value} : isTextList v = true ↔ ∃ texts, v = textList texts := by
  cases v with
  | list xs =>
    simp only [isTextList, List.all_eq_true, isText_iff, textList, Value.list.injEq]
    constructor
    · intro h
      induction xs with
      | nil => exact ⟨[], rfl⟩
      | cons x xs ih =>
        obtain ⟨text, rfl⟩ := h x List.mem_cons_self
        obtain ⟨texts, rfl⟩ := ih fun y hy => h y (List.mem_cons_of_mem _ hy)
        exact ⟨text :: texts, rfl⟩
    · rintro ⟨texts, rfl⟩ x hx
      obtain ⟨text, -, rfl⟩ := List.mem_map.mp hx
      exact ⟨text, rfl⟩
  | _ => simp [isTextList, textList]

theorem isTextTable_iff {v : Value} :
    isTextTable v = true ↔ ∃ rows : List (List String), v = .list (rows.map textList) := by
  cases v with
  | list xs =>
    simp only [isTextTable, List.all_eq_true, isTextList_iff, Value.list.injEq]
    constructor
    · intro h
      induction xs with
      | nil => exact ⟨[], rfl⟩
      | cons x xs ih =>
        obtain ⟨row, rfl⟩ := h x List.mem_cons_self
        obtain ⟨rows, rfl⟩ := ih fun y hy => h y (List.mem_cons_of_mem _ hy)
        exact ⟨row :: rows, rfl⟩
    · rintro ⟨rows, rfl⟩ x hx
      obtain ⟨row, -, rfl⟩ := List.mem_map.mp hx
      exact ⟨row, rfl⟩
  | _ => simp [isTextTable]

theorem ofValue?_iff {v : Value} {kind : Kind} :
    Kind.ofValue? v = some kind ↔ v = .str kind.name := by
  constructor
  · intro h
    cases v with
    | str s => rw [Kind.name_of_named? h]
    | _ => exact absurd h (by simp [Kind.ofValue?, Value.text?])
  · rintro rfl
    exact Kind.named?_name kind

/-! ### One rule after the other -/

theorem disallowed_eq_nil {kind : Kind} {props : Table Value} {path : String} :
    disallowed kind props path = [] ↔ ∀ key ∈ props.names, key ∈ kind.spec.allowed := by
  simp [disallowed, List.filterMap_eq_nil_iff, Table.names, Spec.allows]

theorem misused_eq_nil {kind : Kind} {props : Table Value} {path : String} :
    misused kind props path = [] ↔ ∀ prop choices text, (prop, choices) ∈ kind.spec.choices →
      props.get? prop = some (.str text) → text ∈ choices := by
  rw [misused, List.filterMap_eq_nil_iff]
  constructor
  · intro h prop choices text member value
    have := h (prop, choices) member
    simp only [value] at this
    split at this
    · assumption
    · cases this
  · rintro h ⟨prop, choices⟩ member
    dsimp only
    split
    · next text value => rw [if_pos (h prop choices text member value)]
    · rfl

theorem untexted_eq_nil {props : Table Value} {path : String} :
    untexted props path = [] ↔ ∀ key v, (key, v) ∈ props → key ∈ textProps → ∃ text, v = .str text := by
  simp only [untexted, List.filterMap_eq_nil_iff, Prod.forall, ← isText_iff]
  refine forall₃_congr fun key v _ => ?_
  by_cases known : key ∈ textProps <;> by_cases text : v.isText = true <;> simp [known, text]

theorem misshapen_eq_nil {kind : Kind} {props : Table Value} {path : String} :
    misshapen kind props path = [] ↔ (kind = .table →
      (∃ headers, props.get? "headers" = some (textList headers)) ∧
      ∃ rows : List (List String), props.get? "rows" = some (.list (rows.map textList))) := by
  have found {p : Value → Bool} {o : Option Value} {bad : Violation} :
      (if o.any p then [] else [bad]) = [] ↔ ∃ v, o = some v ∧ p v = true := by
    cases o <;> simp
  by_cases h : kind = .table
  · simp only [misshapen, h, if_true, List.append_eq_nil_iff, found, isTextList_iff, isTextTable_iff,
      forall_const]
    constructor
    · rintro ⟨⟨_, headers, texts, rfl⟩, ⟨_, rows, table, rfl⟩⟩
      exact ⟨⟨texts, headers⟩, ⟨table, rows⟩⟩
    · rintro ⟨⟨texts, headers⟩, ⟨table, rows⟩⟩
      exact ⟨⟨_, headers, texts, rfl⟩, ⟨_, rows, table, rfl⟩⟩
  · simp [misshapen, h]

theorem propViolations_eq_nil {kind : Kind} {props : Table Value} {path : String} :
    propViolations kind props path = [] ↔ FitsKind kind props := by
  simp only [propViolations, List.append_eq_nil_iff, disallowed_eq_nil, misused_eq_nil,
    untexted_eq_nil, misshapen_eq_nil]
  constructor
  · rintro ⟨⟨⟨allowed, chosen⟩, texts⟩, shaped⟩
    exact ⟨allowed, chosen, texts, shaped⟩
  · rintro ⟨allowed, chosen, texts, shaped⟩
    exact ⟨⟨⟨allowed, chosen⟩, texts⟩, shaped⟩

theorem propsViolations_eq_nil {kind : Kind} {props : Option Value} {path : String} :
    propsViolations kind props path = [] ↔ HasProps kind props := by
  unfold propsViolations
  split
  · rw [propViolations_eq_nil]
    exact ⟨.absent, fun | .absent fits => fits⟩
  · rw [propViolations_eq_nil]
    exact ⟨.null, fun | .null fits => fits⟩
  · rw [propViolations_eq_nil]
    exact ⟨.table, fun | .table fits => fits⟩
  · next v notNull noTable =>
    simp only [reduceCtorEq, false_iff]
    intro has
    cases has with
    | null => exact notNull rfl
    | table => exact noTable _ rfl

theorem childrenViolations_eq_nil {children : Option Value} {path : String} :
    childrenViolations children path = [] ↔
      children = none ∨ ∃ listed, children = some (.list listed) := by
  unfold childrenViolations
  split <;> simp_all

/-! ### Nodes and plans -/

/-- The node is an object with a whitelisted type. -/
def Typed (v : Value) (fields : Table Value) (kind : Kind) : Prop :=
  v = .object fields ∧ fields.get? "type" = some (.str kind.name)

theorem nodeViolations_typed {fields : Table Value} {kind : Kind}
    (type : fields.get? "type" = some (.str kind.name)) (path : String) :
    nodeViolations (.object fields) path = propsViolations kind (fields.get? "props") path ++
      childrenViolations (fields.get? "children") path := by
  simp only [nodeViolations]
  rw [type, Option.bind_some, ofValue?_iff.mpr rfl]

theorem childrenOf_typed {fields : Table Value} {kind : Kind}
    (type : fields.get? "type" = some (.str kind.name)) :
    childrenOf (.object fields) = (((fields.get? "children").bind Value.items?).getD []) := by
  simp only [childrenOf]
  rw [type, Option.bind_some, ofValue?_iff.mpr rfl]
  split
  · next h => simp [h, Value.items?]
  · next other =>
    cases h : Table.get? fields "children" with
    | none => rfl
    | some v =>
      cases v with
      | list children => exact (other _ _ rfl h).elim
      | _ => rfl

/-- Any other node is reported once, and nothing below it is looked at. -/
theorem untyped {v : Value} (h : ¬ ∃ fields kind, Typed v fields kind) : childrenOf v = [] ∧
    ∀ path, nodeViolations v path = [⟨path, "must be an object.", .notAnObject⟩] ∨
      nodeViolations v path = [⟨path ++ ".type", "must be a whitelisted component.", .unknownKind⟩] := by
  cases v with
  | object fields =>
    have unknown : (Table.get? fields "type").bind Kind.ofValue? = none := by
      cases known : (Table.get? fields "type").bind Kind.ofValue? with
      | none => rfl
      | some kind =>
        obtain ⟨type, found, named⟩ := Option.bind_eq_some_iff.mp known
        rw [ofValue?_iff.mp named] at found
        exact (h ⟨fields, kind, rfl, found⟩).elim
    constructor
    · simp only [childrenOf]
      rw [unknown]
    · intro path
      right
      simp only [nodeViolations]
      rw [unknown]
  | _ => exact ⟨rfl, fun path => .inl rfl⟩

theorem mem_childrenOf {v c : Value} :
    c ∈ childrenOf v ↔ ∃ (fields : Table Value) (kind : Kind) (children : List Value),
      Typed v fields kind ∧ fields.get? "children" = some (.list children) ∧ c ∈ children := by
  constructor
  · intro member
    by_cases typed : ∃ fields kind, Typed v fields kind
    · obtain ⟨fields, kind, rfl, type⟩ := typed
      rw [childrenOf_typed type] at member
      cases listed : Table.get? fields "children" with
      | none =>
        rw [listed] at member
        cases member
      | some w =>
        rw [listed] at member
        cases w with
        | list children => exact ⟨fields, kind, children, ⟨rfl, type⟩, listed, member⟩
        | _ => cases member
    · rw [(untyped typed).1] at member
      cases member
  · rintro ⟨fields, kind, children, ⟨rfl, type⟩, listed, member⟩
    rw [childrenOf_typed type, listed]
    exact member

/-- Nothing is wrong with the node itself, its children left aside. -/
theorem nodeViolations_eq_nil {v : Value} {path : String} :
    nodeViolations v path = [] ↔ ∃ (fields : Table Value) (kind : Kind), Typed v fields kind ∧
      HasProps kind (fields.get? "props") ∧
      (fields.get? "children" = none ∨ ∃ listed, fields.get? "children" = some (.list listed)) := by
  constructor
  · intro clean
    by_cases typed : ∃ fields kind, Typed v fields kind
    · obtain ⟨fields, kind, rfl, type⟩ := typed
      rw [nodeViolations_typed type, List.append_eq_nil_iff, propsViolations_eq_nil,
        childrenViolations_eq_nil] at clean
      exact ⟨fields, kind, ⟨rfl, type⟩, clean⟩
    · rcases (untyped typed).2 path with bad | bad <;> rw [bad] at clean <;> cases clean
  · rintro ⟨fields, kind, ⟨rfl, type⟩, clean⟩
    rwa [nodeViolations_typed type, List.append_eq_nil_iff, propsViolations_eq_nil,
      childrenViolations_eq_nil]

theorem forest_eq_nil {vs : List Value} {level : Nat} {Good : Value → Prop}
    (each : ∀ v ∈ vs, ∀ path, tree level path v = [] ↔ Good v) (pathOf : Nat → String) (start : Nat) :
    forest pathOf level start vs = [] ↔ ∀ v ∈ vs, Good v := by
  induction vs generalizing start with
  | nil => simp [forest_nil]
  | cons v vs ih =>
    rw [forest_cons, List.append_eq_nil_iff, each v List.mem_cons_self,
      ih fun w hw => each w (List.mem_cons_of_mem _ hw), List.forall_mem_cons]

theorem tree_eq_nil {level : Nat} {path : String} {v : Value} :
    tree level path v = [] ↔ IsNode level v := by
  induction v using children_induction generalizing level path with
  | step v ih =>
    by_cases deep : maxLevel < level
    · rw [tree_of_tooDeep deep]
      simp only [reduceCtorEq, false_iff]
      rintro (⟨shallow, -⟩ | ⟨shallow, -⟩) <;> omega
    rw [tree_of_le (by omega), List.append_eq_nil_iff, nodeViolations_eq_nil,
      forest_eq_nil fun c hc path => ih c hc]
    constructor
    · rintro ⟨⟨fields, kind, ⟨rfl, type⟩, props, bare | ⟨children, listed⟩⟩, each⟩
      · exact .leaf (by omega) type props bare
      · rw [childrenOf_typed type, listed] at each
        exact .parent (by omega) type props listed each
    · rintro (⟨shallow, type, props, bare⟩ | ⟨shallow, type, props, listed, each⟩)
      · refine ⟨⟨_, _, ⟨rfl, type⟩, props, .inl bare⟩, ?_⟩
        rw [childrenOf_typed type, bare]
        simp
      · refine ⟨⟨_, _, ⟨rfl, type⟩, props, .inr ⟨_, listed⟩⟩, ?_⟩
        rw [childrenOf_typed type, listed]
        exact each

theorem layoutViolations_eq_nil {layout : Option Value} :
    layoutViolations layout = [] ↔ ∃ text ∈ layoutVariants, layout = some (.str text) := by
  unfold layoutViolations
  split
  · next text => by_cases h : text ∈ layoutVariants <;> simp [h]
  · next other =>
    simp only [reduceCtorEq, false_iff]
    rintro ⟨text, -, rfl⟩
    exact other text rfl

/-- The audit finds nothing wrong with plans, and with nothing else. -/
theorem audit_eq_nil {c : Value} : audit c = [] ↔ IsPlan c := by
  cases c with
  | object fields =>
    rw [audit_object, List.append_eq_nil_iff, layoutViolations_eq_nil]
    constructor
    · rintro ⟨⟨layout, variant, arranged⟩, components⟩
      split at components
      · next listed =>
        rw [forest_eq_nil fun _ _ _ => tree_eq_nil] at components
        exact .root variant arranged listed components
      · cases components
    · rintro ⟨variant, arranged, listed, each⟩
      refine ⟨⟨_, variant, arranged⟩, ?_⟩
      rw [listed]
      exact (forest_eq_nil (fun _ _ _ => tree_eq_nil) componentPath 0).mpr each
  | _ =>
    simp only [audit, reduceCtorEq, false_iff]
    rintro ⟨⟩

end ScreenPlan.Grammar
