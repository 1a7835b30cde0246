import ScreenPlan.Plan.Admission
import ScreenPlan.Proofs.Plan.Payload

/-!
# The gate

A candidate passes exactly if its audit is clean, and is answered by all its violations otherwise.
What passes is brought into its form: the payload of the plan is the form of the candidate, and
reading that payload gives the plan again.
-/

namespace ScreenPlan

/-! ### Parts of forms -/

namespace Form

theorem node_of_no_fields {v : Value} (bare : v.fields? = none) (f : Setting) : node f v = v := by
  cases v with
  | object => cases bare
  | _ =>
    rw [node]
    intro fields same
    cases same

theorem listed_of_no_items {v : Value} (bare : v.items? = none) (f : Setting) : listed f v = v := by
  cases v with
  | list => cases bare
  | _ =>
    rw [listed]
    intro items same
    cases same

variable {P : Value → Prop}

theorem throughout_given {o : Option Value} (all : ∀ v, o = some v → v.Throughout P) : (given o).Throughout P := by
  cases o with
  | none => exact .object nofun
  | some v =>
    cases v with
    | null => exact .object nofun
    | _ => exact all _ rfl

/-- What null and all parts of a node have in common, the parts of its form have too, and so it is for a list of
nodes. -/
theorem throughout_node (null : P .null) (v : Value) :
    v.Throughout P → (node untouched v).Throughout P ∧ (listed untouched v).Throughout P := by
  induction v using Value.parts_induction with
  | leaf v noItems noFields =>
    intro all
    rw [node_of_no_fields noFields, listed_of_no_items noItems]
    exact ⟨all, all⟩
  | list xs ih =>
    intro all
    rw [node_of_no_fields rfl, listed_list]
    refine ⟨all, .list fun x hx => ?_⟩
    obtain ⟨y, hy, rfl⟩ := List.mem_map.mp hx
    exact (ih y hy (Value.throughout_list.mp all y hy)).1
  | object fs ih =>
    intro all
    have field : ∀ name v, fs.get? name = some v → v.Throughout P :=
      fun name v found => Value.throughout_object.mp all _ (Table.mem_of_get? found)
    have type : ((fs.get? "type").getD .null).Throughout P := by
      cases found : fs.get? "type" with
      | none => exact .leaf rfl rfl null
      | some v => exact field _ v found
    have children : (children untouched fs).Throughout P := by
      rw [children_eq]
      cases found : fs.get? "children" with
      | none => exact .list nofun
      | some v => exact (ih _ (Table.mem_of_get? found) (field _ v found)).2
    rw [node, listed_of_no_items rfl, arrange_untouched, Value.throughout_object]
    simp only [List.forall_mem_cons, List.not_mem_nil, false_imp_iff, implies_true, and_true]
    exact ⟨⟨type, throughout_given (field "props"), children⟩, all⟩

theorem throughout_plan (null : P .null) {c : Value} (all : c.Throughout P) : (plan untouched c).Throughout P := by
  cases c with
  | object fs =>
    have field : ∀ name (v : Value), Table.get? fs name = some v → v.Throughout P :=
      fun name v found => Value.throughout_object.mp all _ (Table.mem_of_get? found)
    rw [plan, Value.throughout_object]
    simp only [List.forall_mem_cons, List.not_mem_nil, false_imp_iff, implies_true, and_true]
    constructor
    · cases found : Table.get? fs "layout" with
      | none => exact .leaf rfl rfl null
      | some v => exact field _ v found
    · cases found : Table.get? fs "components" with
      | none => exact .leaf rfl rfl null
      | some v => exact (throughout_node null v (field _ v found)).2
  | _ =>
    rw [plan]
    · exact all
    · intro fields same
      cases same

theorem isJson_plan {c : Value} (json : c.IsJson) : (plan untouched c).IsJson :=
  Value.throughout_isJson.mp (throughout_plan .null (Value.throughout_isJson.mpr json))

end Form

/-! ### Admission and refusal -/

variable {c : Value}

theorem accept_of_clean (clean : audit c = []) : ∃ p, Plan.read c = .ok p ∧ accept c = .ok p := by
  obtain ⟨p, read, -⟩ := Plan.read_ok (Grammar.audit_eq_nil.mp clean)
  refine ⟨p, read, ?_⟩
  rw [accept, clean, read]
  rfl

theorem accept_of_wrong (wrong : audit c ≠ []) :
    accept c = .error (.schema (.ofViolations (audit c))) := by
  unfold accept
  split
  · next clean => exact (wrong clean).elim
  · rfl

theorem accept_eq_ok {p : Plan} : accept c = .ok p ↔ audit c = [] ∧ Plan.read c = .ok p := by
  by_cases clean : audit c = []
  · obtain ⟨q, read, accepted⟩ := accept_of_clean clean
    rw [accepted, read]
    simp [clean]
  · rw [accept_of_wrong clean]
    simp [clean]

theorem hasUnknownKind_iff {violations : List Violation} :
    hasUnknownKind violations = true ↔ ∃ v ∈ violations, v.code = .unknownKind := by
  simp [hasUnknownKind]

/-- The payload of an accepted plan is the candidate in its form, from which the same plan is read. -/
theorem payload_of_accepted (json : c.IsJson) {p : Plan} {v : Value} (accepted : accept c = .ok p)
    (written : p.payload = .ok v) :
    v = Form.plan Form.untouched c ∧ audit v = [] ∧ Plan.read v = .ok p := by
  obtain ⟨clean, read⟩ := accept_eq_ok.mp accepted
  obtain ⟨-, rfl⟩ := Plan.payload_eq_ok.mp written
  have plan := Grammar.audit_eq_nil.mp clean
  have form := Plan.data_of_read plan read Form.untouched
  rw [Plan.arranged_untouched] at form
  have settled : p.toValue = p.data := by
    rw [Plan.toValue_eq_settled, form, Value.settled_of_isJson (Form.isJson_plan json)]
  have again : audit p.toValue = [] := by rw [settled, form, Form.audit_plan, clean]
  refine ⟨settled.trans form, again, ?_⟩
  obtain ⟨q, reread, -⟩ := Plan.read_ok (Grammar.audit_eq_nil.mp again)
  have same := Plan.data_of_read (Grammar.audit_eq_nil.mp again) reread Form.untouched
  rw [Plan.arranged_untouched, Plan.form_toValue, settled] at same
  rw [reread, Plan.data_inj same]

/-! ### A card without props, and a toast -/

/-- The card's props are null, its children are missing and it has a note that no plan has. -/
def sparse : Value :=
  .object [("components", .list [.object [("note", .int 7), ("props", .null), ("type", .str "Card")]]),
    ("layout", .str "grid")]

def sparsePlan : Plan := ⟨"grid", [⟨.card, [], []⟩]⟩

theorem isJson_sparse : sparse.IsJson := by
  simp only [sparse, Value.isJson_object, Value.isJson_list, List.forall_mem_cons, List.not_mem_nil,
    false_imp_iff, implies_true, and_true]
  exact ⟨⟨.int 7, .null, .str _⟩, .str _⟩

theorem accept_sparse : accept sparse = .ok sparsePlan := by
  have clean : audit sparse = [] := by cbv
  exact accept_eq_ok.mpr ⟨clean, by with_unfolding_all rfl⟩

theorem payload_sparsePlan : sparsePlan.payload = .ok sparsePlan.toValue :=
  Plan.payload_of_shallow (by unfold Plan.Shallow; decide)

/-- There is no such kind. -/
def toast : Value :=
  .object [("layout", .str "grid"), ("components", .list [.object [("type", .str "Toast")]])]

theorem audit_toast :
    audit toast = [⟨"components[0].type", "must be a whitelisted component.", .unknownKind⟩] := by
  cbv

/-! ### Every candidate -/

/-- Nothing but a clean audit opens the gate, every refusal carries all violations, and the plan of
an accepted candidate holds its form and nothing else. -/
theorem accept_normal_form (c : Value) :
    ((∃ p, accept c = .ok p) ↔ audit c = []) ∧
    (audit c ≠ [] → ∃ refusal : SchemaViolation, accept c = .error (.schema refusal) ∧
      refusal.errors = errorTexts (audit c) ∧
      (refusal.unknownKind = true ↔ ∃ v ∈ audit c, v.code = .unknownKind)) ∧
    (∀ p, verdict c = .ok (.ok p) ↔ accept c = .ok p) ∧
    (∀ refusal, verdict c = .ok (.error refusal) ↔ accept c = .error (.schema refusal)) ∧
    (c.IsJson → ∀ p v, accept c = .ok p → p.payload = .ok v →
      v = Form.plan Form.untouched c ∧ audit v = [] ∧
        ∃ q, Plan.read v = .ok q ∧ q = p ∧ q.payload = .ok v) := by
  refine ⟨⟨?_, ?_⟩, ?_, ?_, ?_, ?_⟩
  · rintro ⟨p, accepted⟩
    exact (accept_eq_ok.mp accepted).1
  · intro clean
    obtain ⟨p, -, accepted⟩ := accept_of_clean clean
    exact ⟨p, accepted⟩
  · intro wrong
    exact ⟨_, accept_of_wrong wrong, rfl, hasUnknownKind_iff⟩
  · intro p
    unfold verdict
    split <;> simp_all
  · intro refusal
    unfold verdict
    split <;> simp_all
  · intro json p v accepted written
    obtain ⟨form, clean, read⟩ := payload_of_accepted json accepted written
    exact ⟨form, clean, p, read, rfl, written⟩

/-- The card is brought into its form, the toast is refused for its kind. -/
theorem accept_normal_form_sparse :
    (sparse.IsJson ∧ accept sparse = .ok sparsePlan ∧ sparsePlan.payload = .ok sparsePlan.toValue ∧
      sparsePlan.toValue = Form.plan Form.untouched sparse ∧ audit sparsePlan.toValue = [] ∧
      ∃ q, Plan.read sparsePlan.toValue = .ok q ∧ q = sparsePlan ∧
        q.payload = .ok sparsePlan.toValue) ∧
    (audit toast ≠ [] ∧ ∃ refusal : SchemaViolation, accept toast = .error (.schema refusal) ∧
      refusal.errors = errorTexts (audit toast) ∧
      (refusal.unknownKind = true ↔ ∃ v ∈ audit toast, v.code = .unknownKind)) := by
  have wrong : audit toast ≠ [] := by
    rw [audit_toast]
    exact List.cons_ne_nil _ _
  have normal := (accept_normal_form sparse).2.2.2.2 isJson_sparse _ _ accept_sparse payload_sparsePlan
  exact ⟨⟨isJson_sparse, accept_sparse, payload_sparsePlan, normal⟩,
    wrong, (accept_normal_form toast).2.1 wrong⟩

end ScreenPlan
