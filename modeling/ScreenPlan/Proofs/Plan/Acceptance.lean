import ScreenPlan.Proofs.Plan.Form

/-!
# Accepted candidates

What the audit accepts is a plan by the grammar, and from every such candidate a plan is read that
holds exactly the form of the candidate.
-/

namespace ScreenPlan

/-- The audit accepts the plans of the grammar and nothing else; keys that the form leaves out make
no difference to it. -/
theorem audit_accepts_plans (c : Value) :
    (audit c = [] ↔ Grammar.IsPlan c) ∧ audit (Form.plan Form.untouched c) = audit c :=
  ⟨Grammar.audit_eq_nil, Form.audit_plan c⟩

namespace Node

mutual
def data : Node → Value
  | ⟨kind, props, children⟩ =>
    .object [("type", .str kind.name), ("props", .object props), ("children", .list (dataAll children))]

def dataAll : List Node → List Value
  | [] => []
  | n :: ns => data n :: dataAll ns
end

mutual
/-- The node with the props of all nodes set out anew. -/
def arranged (f : Setting) : Node → Node
  | ⟨kind, props, children⟩ => ⟨kind, f kind props, arrangedAll f children⟩

def arrangedAll (f : Setting) : List Node → List Node
  | [] => []
  | n :: ns => arranged f n :: arrangedAll f ns
end

end Node

namespace Plan

def data (p : Plan) : Value :=
  .object [("layout", .str p.layout), ("components", .list (Node.dataAll p.components))]

def arranged (f : Setting) (p : Plan) : Plan := ⟨p.layout, Node.arrangedAll f p.components⟩

end Plan

namespace Node

theorem within_reach {level : Nat} (shallow : level ≤ Audit.maxLevel) : ¬ maxLevel < level := by
  have : Audit.maxLevel = 64 := rfl
  have : maxLevel = 254 := rfl
  omega

theorem readKind_ok {fields : Table Value} {kind : Kind}
    (type : fields.get? "type" = some (.str kind.name)) : readKind fields = .ok kind := by
  simp [readKind, Checked.required, type, Checked.text, Kind.named?_name, Checked.within]

theorem readProps_ok {fields : Table Value} {kind : Kind}
    (has : Grammar.HasProps kind (fields.get? "props")) :
    ∃ props, readProps fields = .ok props ∧ Form.given (fields.get? "props") = .object props := by
  unfold readProps Checked.optional
  generalize fields.get? "props" = given at has ⊢
  cases has with
  | absent => exact ⟨[], rfl, rfl⟩
  | null => exact ⟨[], rfl, rfl⟩
  | table => exact ⟨_, rfl, rfl⟩

def readListed (level : Nat) (v : Value) : Checked (List Node) :=
  Checked.within (.field "children") (match v with
    | .list vs => readAll (level + 1) 0 vs
    | _ => Checked.refuse .notList)

theorem readChildren_eq (level : Nat) (fields : Table Value) :
    readChildren level fields = ((fields.get? "children").map (readListed level)).getD (.ok []) := by
  induction fields with
  | nil => rw [readChildren]; rfl
  | cons e fields ih =>
    obtain ⟨key, v⟩ := e
    rw [Table.get?_cons, readChildren.eq_def]
    dsimp only
    rw [ih]
    split <;> rfl

theorem readAll_ok {level : Nat} {vs : List Value}
    (each : ∀ v ∈ vs, ∃ n, read level v = .ok n ∧ ∀ f, (arranged f n).data = Form.node f v)
    (start : Nat) :
    ∃ ns, readAll level start vs = .ok ns ∧ ∀ f, dataAll (arrangedAll f ns) = Form.nodes f vs := by
  induction vs generalizing start with
  | nil => exact ⟨[], rfl, fun f => by rw [arrangedAll, dataAll, Form.nodes]⟩
  | cons v vs ih =>
    obtain ⟨n, got, form⟩ := each v List.mem_cons_self
    obtain ⟨ns, rest, forms⟩ := ih (fun w hw => each w (List.mem_cons_of_mem _ hw)) (start + 1)
    refine ⟨n :: ns, ?_, fun f => by rw [arrangedAll, dataAll, Form.nodes, form, forms]⟩
    rw [readAll, got, rest]
    rfl

/-- Every node of the grammar can be read; what is read has the form of the node. -/
theorem read_ok {level : Nat} {v : Value} (node : Grammar.IsNode level v) :
    ∃ n, read level v = .ok n ∧ ∀ f, (arranged f n).data = Form.node f v := by
  induction node with
  | @leaf level fields kind shallow type props bare =>
    obtain ⟨ps, got, given⟩ := readProps_ok props
    refine ⟨⟨kind, ps, []⟩, ?_, fun f => ?_⟩
    · rw [read, if_neg (within_reach shallow)]
      simp [readKind_ok type, got, readChildren_eq, bare]
    · simp [arranged, arrangedAll, data, dataAll, Form.node, type, given, Form.children_eq, bare,
        Form.arrange, Grammar.ofValue?_iff.mpr rfl]
  | @parent level fields kind children shallow type props listed each ih =>
    obtain ⟨ps, got, given⟩ := readProps_ok props
    obtain ⟨ns, rest, forms⟩ := readAll_ok ih 0
    refine ⟨⟨kind, ps, ns⟩, ?_, fun f => ?_⟩
    · rw [read, if_neg (within_reach shallow)]
      simp [readKind_ok type, got, readChildren_eq, listed, readListed, rest, Checked.within]
    · simp [arranged, data, forms, Form.node, type, given, Form.children_eq, listed, Form.listed,
        Form.arrange, Grammar.ofValue?_iff.mpr rfl]

mutual
theorem arranged_untouched : ∀ n : Node, arranged Form.untouched n = n
  | ⟨kind, props, children⟩ => by rw [arranged, arrangedAll_untouched children, Form.untouched]

theorem arrangedAll_untouched : ∀ ns : List Node, arrangedAll Form.untouched ns = ns
  | [] => by rw [arrangedAll]
  | n :: ns => by rw [arrangedAll, arranged_untouched n, arrangedAll_untouched ns]
end

end Node

namespace Plan

theorem arranged_untouched (p : Plan) : p.arranged Form.untouched = p := by
  rw [arranged, Node.arrangedAll_untouched]

/-- Every plan of the grammar can be read, and nothing but its form comes out. -/
theorem read_ok {c : Value} (plan : Grammar.IsPlan c) :
    ∃ p, read c = .ok p ∧ ∀ f, (p.arranged f).data = Form.plan f c := by
  obtain @⟨fields, layout, components, variant, arranged, listed, each⟩ := plan
  obtain ⟨ns, got, forms⟩ := Node.readAll_ok (fun v hv => Node.read_ok (each v hv)) 0
  refine ⟨⟨layout, ns⟩, ?_, fun f => ?_⟩
  · simp [read, Checked.required, arranged, listed, Checked.text, got, Checked.within]
  · simp [data, Plan.arranged, Form.plan, forms, arranged, listed, Form.listed]

theorem data_of_read {c : Value} {p : Plan} (plan : Grammar.IsPlan c) (got : read c = .ok p)
    (f : Setting) : (p.arranged f).data = Form.plan f c := by
  obtain ⟨q, same, form⟩ := read_ok plan
  cases got.symm.trans same
  exact form f

/-- A plan that is read from an accepted candidate is itself beyond reproach. -/
theorem isPlan_data {c : Value} {p : Plan} (plan : Grammar.IsPlan c) (got : read c = .ok p) :
    Grammar.IsPlan p.data := by
  have form := data_of_read plan got Form.untouched
  rw [arranged_untouched] at form
  rw [← Grammar.audit_eq_nil, form, Form.audit_plan, Grammar.audit_eq_nil]
  exact plan

end Plan
end ScreenPlan
