import ScreenPlan.Markup
import ScreenPlan.Cache.PlanStore
import ScreenPlan.Proofs.Json.Encoders
import ScreenPlan.Proofs.Markup.Tree
import ScreenPlan.Proofs.Plan.Acceptance

/-!
# Payloads

The payload of a plan is its data, settled, and has the form of a candidate already. A payload that
has one text has them all: no encoder runs out of room before the payload does, and no encoder takes
an integer that another finds too long.
-/

namespace ScreenPlan

namespace Node

mutual
theorem toValue_eq_settled : ∀ n : Node, n.toValue = n.data.settled
  | ⟨kind, props, children⟩ => by
    rw [toValue, data, toValues_eq_settled children]
    simp only [Value.settled, Value.settledMembers]

theorem toValues_eq_settled : ∀ ns : List Node, toValues ns = Value.settledItems (dataAll ns)
  | [] => by rw [toValues, dataAll, Value.settledItems]
  | n :: ns => by
    rw [toValues, dataAll, Value.settledItems, toValue_eq_settled n, toValues_eq_settled ns]
end

mutual
theorem data_inj : ∀ {m n : Node}, m.data = n.data → m = n
  | ⟨kind, props, children⟩, ⟨kind', props', children'⟩, same => by
    simp only [data, Value.object.injEq, List.cons.injEq, Prod.mk.injEq, Value.str.injEq,
      Value.list.injEq, true_and, and_true] at same
    obtain ⟨name, props, children⟩ := same
    rw [Kind.name_inj name, props, dataAll_inj children]

theorem dataAll_inj : ∀ {ms ns : List Node}, dataAll ms = dataAll ns → ms = ns
  | [], [], _ => rfl
  | [], _ :: _, same => by simp only [dataAll, reduceCtorEq] at same
  | _ :: _, [], same => by simp only [dataAll, reduceCtorEq] at same
  | m :: ms, n :: ns, same => by
    simp only [dataAll, List.cons.injEq] at same
    rw [data_inj same.1, dataAll_inj same.2]
end

mutual
theorem form_toValue : ∀ n : Node, Form.node Form.untouched n.toValue = n.toValue
  | ⟨kind, props, children⟩ => by
    rw [toValue, Form.node, Form.children_eq]
    simp only [Table.get?_cons, String.reduceEq, if_true, if_false, Option.getD_some, Form.given,
      Form.arrange_untouched, Option.map_some, Form.listed_list, form_toValues children]

theorem form_toValues : ∀ ns : List Node, (toValues ns).map (Form.node Form.untouched) = toValues ns
  | [] => by rw [toValues]; rfl
  | n :: ns => by rw [toValues, List.map_cons, form_toValue n, form_toValues ns]
end

mutual
/-- A node takes two levels of the payload for each of its own, one for itself and one for the list
it stands in. -/
theorem height_toValue : ∀ n : Node, n.toValue.height ≤ 2 * n.height + 2
  | ⟨kind, props, children⟩ => by
    have values : (Value.object (Value.settledMembers props)).height ≤ (Value.object props).height :=
      Value.height_settled_le (.object props)
    have listed : (Value.list (toValues children)).height ≤ 2 * heights children + 1 :=
      Value.height_list_le.mpr fun v hv => Nat.lt_succ_of_le (height_toValues children v hv)
    rw [toValue, height, Value.height_object_le]
    simp only [List.forall_mem_cons, List.not_mem_nil, false_imp_iff, implies_true, and_true]
    refine ⟨Nat.succ_pos _, ?_, ?_⟩ <;> omega

theorem height_toValues : ∀ ns : List Node, ∀ v ∈ toValues ns, v.height ≤ 2 * heights ns
  | [], _, h => by
    rw [toValues] at h
    cases h
  | n :: ns, v, h => by
    rw [toValues] at h
    rw [heights]
    rcases List.mem_cons.mp h with rfl | h
    · have := height_toValue n
      omega
    · have := height_toValues ns v h
      omega
end

end Node

namespace Plan

theorem toValue_eq_settled (p : Plan) : p.toValue = p.data.settled := by
  rw [toValue, data, Node.toValues_eq_settled]
  simp only [Value.settled, Value.settledMembers]

theorem data_inj {p q : Plan} (same : p.data = q.data) : p = q := by
  obtain ⟨layout, components⟩ := p
  obtain ⟨layout', components'⟩ := q
  simp only [data, Value.object.injEq, List.cons.injEq, Prod.mk.injEq, Value.str.injEq,
    Value.list.injEq, true_and, and_true] at same
  rw [same.1, Node.dataAll_inj same.2]

theorem form_toValue (p : Plan) : Form.plan Form.untouched p.toValue = p.toValue := by
  rw [toValue, Form.plan]
  simp only [Table.get?_cons, String.reduceEq, if_true, if_false, Option.getD_some, Option.map_some,
    Form.listed_list, Node.form_toValues]

/-- The nodes of the plan and the values of its props stand no deeper than a payload may reach. -/
def Shallow (p : Plan) : Prop := Node.heights p.components ≤ Node.maxLevel

theorem payload_eq_ok {p : Plan} {v : Value} : p.payload = .ok v ↔ p.Shallow ∧ v = p.toValue := by
  unfold payload Shallow
  split
  · next shallow => simp [shallow, eq_comm]
  · next deep => simp [deep]

theorem payload_of_shallow {p : Plan} (shallow : p.Shallow) : p.payload = .ok p.toValue :=
  payload_eq_ok.mpr ⟨shallow, rfl⟩

theorem payload_of_not_shallow {p : Plan} (deep : ¬ p.Shallow) : p.payload = .error .tooDeep := if_neg deep

theorem isJson_toValue (p : Plan) : p.toValue.IsJson := by
  rw [toValue_eq_settled]
  exact Value.isJson_settled _

theorem height_toValue {p : Plan} (shallow : p.Shallow) : p.toValue.height < Json.stackRoom := by
  have room : Json.stackRoom = 1000 := rfl
  have reach : Node.maxLevel = 254 := rfl
  have listed : (Value.list (Node.toValues p.components)).height ≤ 2 * Node.heights p.components + 1 :=
    Value.height_list_le.mpr fun v hv => Nat.lt_succ_of_le (Node.height_toValues p.components v hv)
  have whole : p.toValue.height ≤ 2 * Node.heights p.components + 2 := by
    rw [toValue, Value.height_object_le]
    simp only [List.forall_mem_cons, List.not_mem_nil, false_imp_iff, implies_true, and_true]
    exact ⟨Nat.succ_pos _, Nat.lt_succ_of_le listed⟩
  unfold Shallow at shallow
  omega

/-! ### Texts of a payload -/

variable {p : Plan}

theorem writtenWith_ok {write : Value → Except Json.Obstacle String} (shallow : p.Shallow) {text : String}
    (written : write p.toValue = .ok text) : p.writtenWith write = .ok text := by
  rw [writtenWith, payload_of_shallow shallow]
  dsimp only
  rw [written]
  rfl

theorem writtenWith_deep {write : Value → Except Json.Obstacle String} (deep : ¬ p.Shallow) :
    p.writtenWith write = .error (.payload .tooDeep) := by
  rw [writtenWith, payload_of_not_shallow deep]

theorem written_of_writtenWith {write : Value → Except Json.Obstacle String} {text : String}
    (written : p.writtenWith write = .ok text) : write p.toValue = .ok text := by
  by_cases shallow : p.Shallow
  · rw [writtenWith, payload_of_shallow shallow] at written
    dsimp only at written
    cases result : write p.toValue with
    | error obstacle =>
      rw [result] at written
      cases written
    | ok text' =>
      rw [result] at written
      exact congrArg Except.ok (Except.ok.inj written)
  · rw [writtenWith_deep shallow] at written
    cases written

/-- No integer in the payload has more digits than are written. -/
def Brief (p : Plan) : Prop := p.toValue.Brief

theorem brief_of_data {p : Plan} (brief : p.data.Brief) : p.Brief := by
  rw [Brief, toValue_eq_settled]
  exact Value.brief_settled brief

/-- The plan can be serialised. -/
def Writable (p : Plan) : Prop := ∃ text, p.compact = .ok text

theorem fits_toValue (shallow : p.Shallow) (brief : p.Brief) : Json.Fits Json.stackRoom p.toValue :=
  Json.fits_of_isJson p.isJson_toValue brief (height_toValue shallow)

theorem writable_iff : p.Writable ↔ p.Shallow ∧ p.Brief := by
  constructor
  · rintro ⟨text, written⟩
    refine ⟨?_, Json.brief_of_compact (written_of_writtenWith written)⟩
    by_contra deep
    rw [compact, writtenWith_deep deep] at written
    cases written
  · rintro ⟨shallow, brief⟩
    obtain ⟨text, written⟩ := Json.compact_of_fits (fits_toValue shallow brief)
    exact ⟨text, writtenWith_ok shallow written⟩

theorem Writable.shallow (writable : p.Writable) : p.Shallow := (writable_iff.mp writable).1

theorem Writable.brief (writable : p.Writable) : p.Brief := (writable_iff.mp writable).2

theorem Writable.fits (writable : p.Writable) : Json.Fits Json.stackRoom p.toValue :=
  fits_toValue writable.shallow writable.brief

theorem indented_ok (writable : p.Writable) : ∃ text, p.indented = .ok text := by
  obtain ⟨s, written⟩ := Json.written_of_fits writable.fits (.lines "  ")
  exact ⟨_, writtenWith_ok writable.shallow written⟩

theorem text_of_indented {text : String} (written : p.indented = .ok text) :
    text = String.ofList (Json.print Json.plain.spelling (.lines "  ") 0 p.toValue) := by
  have encoded := written_of_writtenWith written
  rw [Value.written, if_neg (by decide)] at encoded
  exact Json.text_of_encode encoded

theorem blank_indented : Json.Layout.Blank (.lines "  ") := fun _ hc => .inl (List.eq_of_mem_replicate (n := 2) hc)

theorem canonical_ok (writable : p.Writable) : ∃ text, p.canonical = .ok text := by
  obtain ⟨text, written⟩ := Json.canonical_of_fits writable.fits
  exact ⟨text, writtenWith_ok writable.shallow written⟩

end Plan

/-! ### Code for a payload -/

namespace Markup

theorem settings_ok {ps : Table Value} (each : ∀ e ∈ ps, ∃ text, e.2.compact = .ok text) :
    ∃ texts, settings ps = .ok texts := by
  induction ps with
  | nil => exact ⟨[], rfl⟩
  | cons e ps ih =>
    obtain ⟨text, first⟩ := each e List.mem_cons_self
    obtain ⟨texts, rest⟩ := ih fun d hd => each d (List.mem_cons_of_mem _ hd)
    exact ⟨_, by rw [settings, setting, first, rest]; rfl⟩

theorem tag_ok {n : Node} (each : ∀ name v, n.props.get? name = some v → ∃ text, v.compact = .ok text) :
    ∃ text, tag n = .ok text := by
  have projected : ∀ e ∈ n.kind.spec.project n.props, ∃ text, e.2.compact = .ok text := by
    intro e he
    obtain ⟨name, -, found⟩ := List.mem_filterMap.mp he
    obtain ⟨v, value, rfl⟩ := Option.map_eq_some_iff.mp found
    exact each name v value
  obtain ⟨texts, made⟩ := settings_ok projected
  exact ⟨_, by rw [tag, made]; rfl⟩

mutual
theorem nodeLines_ok (level : Nat) : ∀ n : Node, Json.Fits Json.stackRoom n.data → ∃ ls, nodeLines level n = .ok ls
  | ⟨kind, props, children⟩, h => by
    rw [Node.data] at h
    have values := h.member (e := ("props", .object props)) (by simp)
    have listed := h.member (e := ("children", .list (Node.dataAll children))) (by simp)
    obtain ⟨t, tagged⟩ := tag_ok (n := ⟨kind, props, children⟩) fun name v found =>
      Json.compact_of_fits (values.member (Table.mem_of_get? found))
    obtain ⟨inner, made⟩ := forestLines_ok (level + 1) children fun v hv => listed.item hv
    rw [nodeLines, tagged]
    cases children with
    | nil => exact ⟨_, rfl⟩
    | cons n ns => exact ⟨_, congrArg (Except.map _) made⟩

theorem forestLines_ok (level : Nat) : ∀ ns : List Node, (∀ v ∈ Node.dataAll ns, Json.Fits Json.stackRoom v) →
    ∃ ls, forestLines level ns = .ok ls
  | [], _ => ⟨[], by rw [forestLines]⟩
  | n :: ns, h => by
    rw [Node.dataAll] at h
    obtain ⟨ls, first⟩ := nodeLines_ok level n (h _ List.mem_cons_self)
    obtain ⟨ms, rest⟩ := forestLines_ok level ns fun v hv => h v (List.mem_cons_of_mem _ hv)
    exact ⟨_, by rw [forestLines, first, rest]; rfl⟩
end

theorem renderPlan_ok {p : Plan} (h : Json.Fits Json.stackRoom p.data) (importPath : String) :
    ∃ code, renderPlan importPath p = .ok code := by
  rw [Plan.data] at h
  have listed := h.member (e := ("components", .list (Node.dataAll p.components))) (by simp)
  obtain ⟨ls, made⟩ := forestLines_ok 3 p.components fun v hv => listed.item hv
  exact ⟨_, by rw [renderPlan, body_eq, made]; rfl⟩

theorem generatePlan_deep {p : Plan} (deep : ¬ p.Shallow) (importPath : String) :
    generatePlan importPath p = .error (.payload .tooDeep) := by
  rw [generatePlan, Plan.payload_of_not_shallow deep]

/-- Whatever the second audit of a plan finds, there is code for its payload. -/
theorem generatePlan_ok {p : Plan} (writable : p.Writable) (importPath : String) :
    ∃ g, generatePlan importPath p = .ok g := by
  rw [generatePlan, Plan.payload_of_shallow writable.shallow]
  dsimp only
  by_cases accepted : audit p.toValue = []
  · have plan := Grammar.audit_eq_nil.mp accepted
    obtain ⟨q, read, -⟩ := Plan.read_ok plan
    have form := Plan.data_of_read plan read Form.untouched
    rw [Plan.arranged_untouched, Plan.form_toValue] at form
    obtain ⟨code, rendered⟩ := renderPlan_ok (p := q) (form ▸ writable.fits) importPath
    rw [generate, accepted, read]
    dsimp only
    rw [rendered]
    exact ⟨_, rfl⟩
  · unfold generate
    split
    · next accepted' _ => exact (accepted accepted').elim
    · exact ⟨_, rfl⟩

end Markup
end ScreenPlan
