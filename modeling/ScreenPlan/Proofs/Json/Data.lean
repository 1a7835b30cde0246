import ScreenPlan.Proofs.Json.ReadBack
import ScreenPlan.Plan.Node

/-!
# JSON data

`IsJson` holds of the values that are JSON data: nothing in them is foreign and all numbers are
finite. Settling makes JSON data of any value and leaves JSON data as it is. Brief values have no
integer that is too long to be written, and settling does not make one.
-/

namespace ScreenPlan.Value

/-- A container comes after all its parts. -/
theorem parts_induction {P : Value → Prop} (leaf : ∀ v, v.items? = none → v.fields? = none → P v)
    (list : ∀ xs, (∀ x ∈ xs, P x) → P (.list xs))
    (object : ∀ fs : Table Value, (∀ e ∈ fs, P e.2) → P (.object fs)) (v : Value) : P v := by
  match v with
  | .list xs => exact list xs fun x _ => parts_induction leaf list object x
  | .object fs => exact object fs fun e _ => parts_induction leaf list object e.2
  | .null | .bool _ | .int _ | .float _ | .str _ | .foreign _ => exact leaf _ rfl rfl
termination_by sizeOf v
decreasing_by
  · have := List.sizeOf_lt_of_mem ‹x ∈ xs›
    simp only [Value.list.sizeOf_spec]
    omega
  · exact @sizeOf_lt_of_mem fs e.1 e.2 ‹e ∈ fs›

/-- Values that JSON has a form for. -/
inductive IsJson : Value → Prop
  | null : IsJson .null
  | bool (b : Bool) : IsJson (.bool b)
  | int (n : Int) : IsJson (.int n)
  | float {x : Float} (finite : (x.isNaN || x.isInf) = false) : IsJson (.float x)
  | str (text : String) : IsJson (.str text)
  | list {xs : List Value} (each : ∀ x ∈ xs, IsJson x) : IsJson (.list xs)
  | object {fs : Table Value} (each : ∀ e ∈ fs, IsJson e.2) : IsJson (.object fs)

theorem isJson_list {xs : List Value} : IsJson (.list xs) ↔ ∀ x ∈ xs, IsJson x :=
  ⟨fun | .list each => each, .list⟩

theorem isJson_object {fs : Table Value} : IsJson (.object fs) ↔ ∀ e ∈ fs, IsJson e.2 :=
  ⟨fun | .object each => each, .object⟩

/-! ### Properties of all parts -/

/-- Whatever in the value is no container has the property. -/
inductive Throughout (P : Value → Prop) : Value → Prop
  | leaf {v : Value} (noItems : v.items? = none) (noFields : v.fields? = none) (holds : P v) : Throughout P v
  | list {xs : List Value} (each : ∀ x ∈ xs, Throughout P x) : Throughout P (.list xs)
  | object {fs : Table Value} (each : ∀ e ∈ fs, Throughout P e.2) : Throughout P (.object fs)

theorem throughout_list {P : Value → Prop} {xs : List Value} :
    Throughout P (.list xs) ↔ ∀ x ∈ xs, Throughout P x := by
  refine ⟨fun all => ?_, .list⟩
  cases all with
  | leaf noItems => cases noItems
  | list each => exact each

theorem throughout_object {P : Value → Prop} {fs : Table Value} :
    Throughout P (.object fs) ↔ ∀ e ∈ fs, Throughout P e.2 := by
  refine ⟨fun all => ?_, .object⟩
  cases all with
  | leaf _ noFields => cases noFields
  | object each => exact each

theorem Throughout.mono {P Q : Value → Prop} (weaker : ∀ v, P v → Q v) {v : Value} (all : Throughout P v) :
    Throughout Q v := by
  induction all with
  | leaf noItems noFields holds => exact .leaf noItems noFields (weaker _ holds)
  | list _ ih => exact .list ih
  | object _ ih => exact .object ih

theorem throughout_isJson {v : Value} : Throughout IsJson v ↔ IsJson v := by
  constructor
  · intro all
    induction all with
    | leaf _ _ json => exact json
    | list _ ih => exact .list ih
    | object _ ih => exact .object ih
  · intro json
    induction v using parts_induction with
    | leaf v noItems noFields => exact .leaf noItems noFields json
    | list xs ih => exact .list fun x hx => ih x hx (isJson_list.mp json x hx)
    | object fs ih => exact .object fun e he => ih e he (isJson_object.mp json e he)

/-- No integer in the value has more digits than are written. -/
def Brief (v : Value) : Prop := v.Throughout fun w => ∀ n, w = .int n → Json.digitCount n ≤ Json.maxDigits

/-! ### Settled values -/

theorem settledItems_eq_map (xs : List Value) : settledItems xs = xs.map settled := by
  induction xs with
  | nil => rw [settledItems]; rfl
  | cons x xs ih => rw [settledItems, ih]; rfl

theorem settledMembers_eq_map (fs : Table Value) :
    settledMembers fs = fs.map fun e => (e.1, settled e.2) := by
  induction fs with
  | nil => rw [settledMembers]; rfl
  | cons e fs ih => rw [settledMembers, ih]; rfl

theorem settled_of_isJson {v : Value} (json : IsJson v) : settled v = v := by
  induction json with
  | float finite => simp only [settled, finite, Bool.false_eq_true, if_false]
  | @list xs _ ih =>
    rw [settled, settledItems_eq_map, List.map_congr_left ih, List.map_id']
  | @object fs _ ih =>
    have same : ∀ e ∈ fs, (e.1, settled e.2) = e := fun e he => by rw [ih e he]
    rw [settled, settledMembers_eq_map, List.map_congr_left same, List.map_id']
  | _ => rw [settled] <;> exact nofun

theorem isJson_settled (v : Value) : IsJson (settled v) := by
  induction v using parts_induction with
  | leaf v noItems noFields =>
    cases v with
    | null => exact .null
    | bool b => exact .bool b
    | int n => exact .int n
    | float x =>
      rw [settled]
      split
      · exact .null
      · next finite => exact .float (Bool.not_eq_true _ ▸ finite)
    | str text => exact .str text
    | list => cases noItems
    | object => cases noFields
    | foreign f => cases f <;> exact .str _
  | list xs ih =>
    rw [settled, settledItems_eq_map]
    refine .list fun x hx => ?_
    obtain ⟨y, hy, rfl⟩ := List.mem_map.mp hx
    exact ih y hy
  | object fs ih =>
    rw [settled, settledMembers_eq_map]
    refine .object fun e he => ?_
    obtain ⟨d, hd, rfl⟩ := List.mem_map.mp he
    exact ih d hd

theorem brief_settled {v : Value} (brief : v.Brief) : v.settled.Brief := by
  induction v using parts_induction with
  | leaf v noItems noFields =>
    cases v with
    | float x =>
      rw [settled]
      split <;> exact .leaf rfl rfl nofun
    | list => cases noItems
    | object => cases noFields
    | foreign f => cases f <;> exact .leaf rfl rfl nofun
    | _ => exact brief
  | list xs ih =>
    rw [settled, settledItems_eq_map]
    exact .list (List.forall_mem_map.mpr fun x hx => ih x hx (throughout_list.mp brief x hx))
  | object fs ih =>
    rw [settled, settledMembers_eq_map]
    exact .object (List.forall_mem_map.mpr fun e he => ih e he (throughout_object.mp brief e he))

/-! ### Nesting -/

theorem heightItems_le {xs : List Value} {n : Nat} : heightItems xs ≤ n ↔ ∀ x ∈ xs, x.height ≤ n := by
  induction xs with
  | nil => simp [heightItems]
  | cons x xs ih => rw [heightItems, Nat.max_le, ih, List.forall_mem_cons]

theorem heightFields_le {fs : Table Value} {n : Nat} :
    heightFields fs ≤ n ↔ ∀ e ∈ fs, e.2.height ≤ n := by
  induction fs with
  | nil => simp [heightFields]
  | cons e fs ih => rw [heightFields, Nat.max_le, ih, List.forall_mem_cons]

/-- The parts of a list of height at most `n + 1` are at most `n` high, and a list without parts
fits anywhere. -/
theorem height_list_le {xs : List Value} {n : Nat} :
    (Value.list xs).height ≤ n ↔ ∀ x ∈ xs, x.height < n := by
  cases xs with
  | nil => simp [height]
  | cons x xs =>
    cases n with
    | zero =>
      simp only [height, List.forall_mem_cons, Nat.not_lt_zero, false_and, iff_false]
      omega
    | succ n =>
      rw [height, Nat.succ_le_succ_iff, Nat.max_le, heightItems_le, List.forall_mem_cons]
      simp only [Nat.lt_succ_iff]

theorem height_object_le {fs : Table Value} {n : Nat} :
    (Value.object fs).height ≤ n ↔ ∀ e ∈ fs, e.2.height < n := by
  cases fs with
  | nil => simp [height]
  | cons e fs =>
    cases n with
    | zero =>
      simp only [height, List.forall_mem_cons, Nat.not_lt_zero, false_and, iff_false]
      omega
    | succ n =>
      rw [height, Nat.succ_le_succ_iff, Nat.max_le, heightFields_le, List.forall_mem_cons]
      simp only [Nat.lt_succ_iff]

theorem height_settled_le (v : Value) : v.settled.height ≤ v.height := by
  induction v using parts_induction with
  | leaf v noItems noFields =>
    cases v with
    | float x => rw [settled]; split <;> exact Nat.le_refl _
    | list => cases noItems
    | object => cases noFields
    | foreign f => cases f <;> exact Nat.le_refl _
    | _ => exact Nat.le_refl _
  | list xs ih =>
    rw [settled, settledItems_eq_map, height_list_le]
    intro x hx
    obtain ⟨y, hy, rfl⟩ := List.mem_map.mp hx
    exact Nat.lt_of_le_of_lt (ih y hy) (height_list_le.mp (Nat.le_refl _) y hy)
  | object fs ih =>
    rw [settled, settledMembers_eq_map, height_object_le]
    intro e he
    obtain ⟨d, hd, rfl⟩ := List.mem_map.mp he
    exact Nat.lt_of_le_of_lt (ih d hd) (height_object_le.mp (Nat.le_refl _) d hd)

/-! ### Sorted values -/

theorem sortedItems_eq_map (xs : List Value) : sortedItems xs = xs.map sorted := by
  induction xs with
  | nil => rw [sortedItems]; rfl
  | cons x xs ih => rw [sortedItems, ih]; rfl

theorem sortedMembers_eq_map (fs : Table Value) : sortedMembers fs = fs.map fun e => (e.1, sorted e.2) := by
  induction fs with
  | nil => rw [sortedMembers]; rfl
  | cons e fs ih => rw [sortedMembers, ih]; rfl

theorem isJson_sorted {v : Value} : IsJson v.sorted ↔ IsJson v := by
  induction v using parts_induction with
  | leaf v noItems noFields =>
    cases v with
    | list => cases noItems
    | object => cases noFields
    | _ => rfl
  | list xs ih =>
    rw [sorted, sortedItems_eq_map, isJson_list, isJson_list, List.forall_mem_map]
    exact forall₂_congr ih
  | object fs ih =>
    rw [sorted, isJson_object, isJson_object]
    simp only [List.mem_mergeSort, sortedMembers_eq_map, List.forall_mem_map]
    exact forall₂_congr ih

end ScreenPlan.Value
