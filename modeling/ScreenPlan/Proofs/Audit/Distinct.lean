import Mathlib.Data.List.Nodup
import ScreenPlan.Proofs.Audit.Report

/-!
# Every error once

No two errors of an audit read the same, whatever the props are named. Texts about different places part ways before
a name comes in, and a name that imitates a message cannot end as the message that it stands in does.
-/

namespace ScreenPlan

/-- As in all JSON, no name occurs twice in an object. -/
inductive Value.Unambiguous : Value → Prop
  | null : Unambiguous .null
  | bool (b : Bool) : Unambiguous (.bool b)
  | int (n : Int) : Unambiguous (.int n)
  | float (x : Float) : Unambiguous (.float x)
  | str (text : String) : Unambiguous (.str text)
  | foreign (f : Foreign) : Unambiguous (.foreign f)
  | list {xs : List Value} (each : ∀ x ∈ xs, Unambiguous x) : Unambiguous (.list xs)
  | object {fs : Table Value} (distinct : fs.names.Nodup) (each : ∀ e ∈ fs, Unambiguous e.2) :
      Unambiguous (.object fs)

theorem Value.unambiguous_list {xs : List Value} : Unambiguous (.list xs) ↔ ∀ x ∈ xs, x.Unambiguous :=
  ⟨fun | .list each => each, .list⟩

theorem Value.unambiguous_object {fs : Table Value} :
    Unambiguous (.object fs) ↔ fs.names.Nodup ∧ ∀ e ∈ fs, e.2.Unambiguous :=
  ⟨fun | .object distinct each => ⟨distinct, each⟩, fun ⟨distinct, each⟩ => .object distinct each⟩

theorem Value.Unambiguous.entry {fs : Table Value} {name : String} {v : Value} (whole : Unambiguous (.object fs))
    (found : fs.get? name = some v) : v.Unambiguous := by
  exact (Value.unambiguous_object.mp whole).2 _ (Table.mem_of_get? found)

namespace Report

/-! ### Texts that part ways -/

/-- Neither text goes on from the other. -/
def Diverge (x y : String) : Prop := ¬ x.toList <+: y.toList ∧ ¬ y.toList <+: x.toList

variable {x y place : String} {vs ws : List Violation}

instance : Decidable (Diverge x y) := inferInstanceAs (Decidable (_ ∧ _))

theorem Diverge.ne (diverge : Diverge x y) (rest rest' : String) : x ++ rest ≠ y ++ rest' := by
  intro same
  have first : x.toList <+: (x ++ rest).toList := by
    rw [String.toList_append]
    apply List.prefix_append
  have second : y.toList <+: (x ++ rest).toList := by
    rw [same, String.toList_append]
    apply List.prefix_append
  rcases List.prefix_or_prefix_of_prefix first second with shorter | longer
  · exact diverge.1 shorter
  · exact diverge.2 longer

theorem Diverge.append_left (diverge : Diverge x y) (path : String) : Diverge (path ++ x) (path ++ y) := by
  unfold Diverge
  rw [String.toList_append, String.toList_append, List.prefix_append_right_inj, List.prefix_append_right_inj]
  exact diverge

theorem takeWhile_index (i : Nat) (rest : List Char) :
    ((toString i ++ "]").toList ++ rest).takeWhile Char.isDigit = Nat.toDigits 10 i := by
  have digits : ∀ c ∈ Nat.toDigits 10 i, c.isDigit = true :=
    fun c member => Nat.isDigit_of_mem_toDigits (by decide) (by decide) member
  show ((i.repr ++ "]").toList ++ rest).takeWhile Char.isDigit = _
  rw [String.toList_append, Nat.toList_repr, List.append_assoc, List.takeWhile_append_of_pos digits]
  exact List.append_nil _

theorem diverge_index {i j : Nat} (differ : i ≠ j) : Diverge (toString i ++ "]") (toString j ++ "]") := by
  have same {i j : Nat} (longer : (toString i ++ "]").toList <+: (toString j ++ "]").toList) : i = j := by
    obtain ⟨rest, equal⟩ := longer
    have digits := congrArg (List.takeWhile Char.isDigit) (equal.trans (List.append_nil _).symm)
    rw [takeWhile_index, takeWhile_index] at digits
    rw [← Nat.ofDigitChars_ten_toDigits (n := i), digits, Nat.ofDigitChars_ten_toDigits]
  exact ⟨fun longer => differ (same longer), fun longer => differ (same longer).symm⟩

/-! ### Violations at a place -/

/-- What the violations say begins with the place, and no two say the same. -/
structure Placed (place : String) (vs : List Violation) : Prop where
  begins : ∀ text ∈ errorTexts vs, ∃ rest, text = place ++ rest
  distinct : (errorTexts vs).Nodup

theorem Placed.outward (placed : Placed (place ++ x) vs) : Placed place vs := by
  refine ⟨fun text member => ?_, placed.distinct⟩
  obtain ⟨rest, rfl⟩ := placed.begins text member
  exact ⟨x ++ rest, String.append_assoc⟩

theorem placed_nil : Placed place [] := ⟨fun _ none => (List.not_mem_nil none).elim, List.nodup_nil⟩

theorem placed_single (place message : String) (code : ViolationCode) : Placed place [⟨place, message, code⟩] := by
  refine ⟨fun text member => ⟨" " ++ message, ?_⟩, List.nodup_singleton _⟩
  rw [List.mem_singleton.mp member]
  exact String.append_assoc

theorem Placed.nodup_append (one : Placed x vs) (other : Placed y ws) (diverge : Diverge x y) :
    (errorTexts (vs ++ ws)).Nodup := by
  unfold errorTexts
  rw [List.map_append, List.nodup_append]
  refine ⟨one.distinct, other.distinct, fun text member text' member' => ?_⟩
  obtain ⟨rest, rfl⟩ := one.begins text member
  obtain ⟨rest', rfl⟩ := other.begins text' member'
  exact diverge.ne rest rest'

theorem Placed.append (one : Placed (place ++ x) vs) (other : Placed (place ++ y) ws) (diverge : Diverge x y) :
    Placed place (vs ++ ws) := by
  refine ⟨fun text member => ?_, one.nodup_append other (diverge.append_left place)⟩
  unfold errorTexts at member
  rw [List.map_append] at member
  rcases List.mem_append.mp member with early | late
  · exact one.outward.begins text early
  · exact other.outward.begins text late

/-- Nodes side by side have places that differ in the index. -/
theorem placed_children {nodes : List Value} {found : Value × Nat → List Violation}
    (each : ∀ e ∈ nodes.zipIdx, Placed (place ++ (toString e.2 ++ "]")) (found e)) :
    Placed place (nodes.zipIdx.flatMap found) := by
  constructor
  · intro text member
    unfold errorTexts at member
    rw [List.map_flatMap] at member
    obtain ⟨e, among, member⟩ := List.mem_flatMap.mp member
    exact (each e among).outward.begins text member
  · unfold errorTexts
    rw [List.map_flatMap, List.nodup_flatMap]
    refine ⟨fun e among => (each e among).distinct, ?_⟩
    have indexed : (nodes.zipIdx.map Prod.snd).Nodup := by
      rw [List.zipIdx_map_snd]
      exact List.nodup_range' 1
    refine (List.pairwise_map.mp indexed).imp_of_mem ?_
    intro e e' among among' differ text first second
    obtain ⟨rest, rfl⟩ := (each e among).begins text first
    obtain ⟨rest', same⟩ := (each e' among').begins _ second
    exact ((diverge_index differ).append_left place).ne rest rest' same

/-! ### Props -/

/-- What is said of a prop, behind the place of the props. -/
def remark (prop message : String) : String := prop ++ " " ++ message

def unfit (kind : Kind) : String := "is not allowed for " ++ kind.name ++ "."

def offer (choices : List String) : String := "must be one of: " ++ String.intercalate ", " choices ++ "."

/-- What is said of the shape of a table. -/
def shapeRemarks (kind : Kind) (props : Table Value) : List String :=
  if kind = .table then
    (if ∃ headers ∈ props.get? "headers", IsTextList headers then []
      else [remark "headers" "must be an array of strings."]) ++
    if ∃ rows ∈ props.get? "rows", IsTextTable rows then []
      else [remark "rows" "must be an array of string arrays."]
  else []

/-- What is said of the props of a kind, in order. -/
def remarks (kind : Kind) (props : Table Value) : List String :=
  (props.filter fun e => e.1 ∉ kind.spec.allowed).map (fun e => remark e.1 (unfit kind)) ++
  (kind.spec.choices.filter fun e => Strays props e.1 e.2).map (fun e => remark e.1 (offer e.2)) ++
  (props.filter fun e => e.1 ∈ textProps ∧ ¬ IsText e.2).map (fun e => remark e.1 "must be a string.") ++
  shapeRemarks kind props

theorem errorTexts_ofTable (kind : Kind) (props : Table Value) (path : String) :
    errorTexts (ofTable kind props path) = (remarks kind props).map (path ++ ".props." ++ ·) := by
  have text (prop message : String) (code : ViolationCode) :
      Violation.text ⟨path ++ ".props." ++ prop, message, code⟩ = path ++ ".props." ++ remark prop message := by
    simp only [Violation.text, remark, String.append_assoc]
  have shape (prop place message : String) (literal : ".props." ++ prop = place) :
      Violation.text ⟨path ++ place, message, .tableShape⟩ = path ++ ".props." ++ remark prop message := by
    rw [← literal, ← String.append_assoc, text]
  have headers := shape "headers" ".props.headers" "must be an array of strings." rfl
  have rows := shape "rows" ".props.rows" "must be an array of string arrays." rfl
  unfold errorTexts ofTable remarks shapeRemarks
  simp only [List.map_append, List.map_map]
  congr 1
  · refine congrArg₂ _ (congrArg₂ _ ?_ ?_) ?_ <;> exact List.map_congr_left fun e _ => text _ _ _
  · split
    · rw [List.map_append, List.map_append]
      congr 1 <;> split <;> simp [headers, rows]
    · rfl

def offers (kind : Kind) : List String := kind.spec.choices.map fun e => remark e.1 (offer e.2)

def wants : List String := textProps.map (remark · "must be a string.")

def shapes : List String :=
  [remark "headers" "must be an array of strings.", remark "rows" "must be an array of string arrays."]

theorem nodup_fixed (kind : Kind) : (offers kind ++ (wants ++ shapes)).Nodup := by
  cases kind <;> decide +kernel

theorem not_unfit (kind : Kind) :
    ∀ text ∈ offers kind ++ (wants ++ shapes), ¬ (" " ++ unfit kind).toList <:+ text.toList := by
  cases kind <;> decide +kernel

variable {kind : Kind} {props : Table Value}

theorem nodup_remark (distinct : props.names.Nodup) (p : String × Value → Bool) (message : String) :
    ((props.filter p).map fun e => remark e.1 message).Nodup := by
  have names : ((props.filter p).map Prod.fst).Nodup := (List.filter_sublist.map Prod.fst).nodup distinct
  have said : ((props.filter p).map fun e => remark e.1 message) =
      ((props.filter p).map Prod.fst).map (remark · message) := by
    rw [List.map_map]
    rfl
  rw [said]
  refine names.map fun prop other same => ?_
  dsimp only [remark] at same
  rwa [String.append_left_inj, String.append_left_inj] at same

theorem nodup_parts {first second third first' second' third' : List String}
    (apart : (first ++ (second ++ third)).Nodup) (offered : first'.Sublist first) (wanted : second' ⊆ second)
    (once : second'.Nodup) (shaped : third'.Sublist third) : (first' ++ (second' ++ third')).Nodup := by
  rw [List.nodup_append, List.nodup_append] at apart ⊢
  obtain ⟨first_nodup, ⟨-, third_nodup, behind⟩, before⟩ := apart
  refine ⟨offered.nodup first_nodup, ⟨once, shaped.nodup third_nodup, ?_⟩, ?_⟩
  · intro text member text' member'
    exact behind text (wanted member) text' (shaped.subset member')
  · intro text member text' member'
    apply before text (offered.subset member) text'
    exact List.mem_append.mpr ((List.mem_append.mp member').imp (fun h => wanted h) fun h => shaped.subset h)

/-- A refused name may be any text, but no other remark ends as a refusal does. -/
theorem nodup_remarks (distinct : props.names.Nodup) (kind : Kind) : (remarks kind props).Nodup := by
  have offered : ((kind.spec.choices.filter fun e => Strays props e.1 e.2).map fun e =>
      remark e.1 (offer e.2)).Sublist (offers kind) := List.filter_sublist.map _
  have wanted : ((props.filter fun e => e.1 ∈ textProps ∧ ¬ IsText e.2).map fun e =>
      remark e.1 "must be a string.") ⊆ wants := by
    intro text member
    obtain ⟨e, among, rfl⟩ := List.mem_map.mp member
    have known := of_decide_eq_true (List.mem_filter.mp among).2
    exact List.mem_map_of_mem known.1
  have shaped : (shapeRemarks kind props).Sublist shapes := by
    have lacking (p : Prop) [Decidable p] (text : String) : (if p then [] else [text]).Sublist [text] := by
      split <;> simp
    unfold shapeRemarks
    split
    · exact (lacking _ _).append (lacking _ _)
    · exact List.nil_sublist _
  have others := nodup_parts (nodup_fixed kind) offered wanted (nodup_remark distinct _ _) shaped
  unfold remarks
  rw [List.append_assoc, List.append_assoc, List.nodup_append]
  refine ⟨nodup_remark distinct _ _, others, ?_⟩
  rintro _ refused text member rfl
  obtain ⟨e, -, rfl⟩ := List.mem_map.mp refused
  have fixed : remark e.1 (unfit kind) ∈ offers kind ++ (wants ++ shapes) := by
    rw [List.mem_append, List.mem_append] at member ⊢
    rcases member with member | member | member
    · exact .inl (offered.subset member)
    · exact .inr (.inl (wanted member))
    · exact .inr (.inr (shaped.subset member))
  apply not_unfit kind _ fixed
  rw [remark, String.append_assoc]
  exact ⟨e.1.toList, String.toList_append.symm⟩

theorem placed_ofTable (distinct : props.names.Nodup) (kind : Kind) (path : String) :
    Placed (path ++ ".props") (ofTable kind props path) := by
  constructor
  · intro text member
    rw [errorTexts_ofTable] at member
    obtain ⟨said, -, rfl⟩ := List.mem_map.mp member
    have literal : ".props." = ".props" ++ "." := rfl
    exact ⟨"." ++ said, by rw [literal]; simp only [String.append_assoc]⟩
  · rw [errorTexts_ofTable]
    exact (nodup_remarks distinct kind).map fun said other same => (String.append_right_inj _).mp same

/-! ### Nodes and plans -/

theorem placed_ofProps {props : Option Value} (whole : ∀ v, props = some v → v.Unambiguous) (kind : Kind)
    (path : String) : Placed (path ++ ".props") (ofProps kind props path) := by
  have bare : Table.names ([] : Table Value) |>.Nodup := List.nodup_nil
  unfold ofProps
  split
  · exact placed_ofTable bare kind path
  · exact placed_ofTable bare kind path
  · cases whole _ rfl with
    | object distinct => exact placed_ofTable distinct kind path
  · exact placed_single _ _ _

theorem placed_ofNode {v : Value} (whole : v.Unambiguous) (level : Nat) (path : String) :
    Placed path (ofNode level path v) := by
  induction v using Audit.children_induction generalizing level path with
  | step v ih =>
    rw [ofNode.eq_def]
    split
    · exact placed_single _ _ _
    · split
      · next fields =>
        split
        · exact (placed_single _ _ _).outward
        · next kind typed =>
          have props := @placed_ofProps (Table.get? fields "props") (fun _ found => whole.entry found) kind path
          refine props.append (y := ".children") ?_ (by decide)
          split
          · exact placed_nil
          · next children listed =>
            have below : ∀ c ∈ children, ∀ level path, Placed path (ofNode level path c) := by
              intro c member level path
              apply ih c _ _ level path
              · dsimp only [Audit.childrenOf]
                rw [typed, listed]
                exact member
              · exact Value.unambiguous_list.mp (whole.entry listed) c member
            have bracket : path ++ ".children[" = path ++ ".children" ++ "[" := by
              rw [String.append_assoc]
              rfl
            apply Placed.outward (x := "[")
            rw [← bracket]
            apply placed_children
            intro e member
            rw [← String.append_assoc]
            exact below e.1 (List.fst_mem_of_mem_zipIdx member) _ _
          · exact placed_single _ _ _
      · exact placed_single _ _ _

/-- No two errors of an audit read the same, for any candidate whose objects have one entry for a name. -/
theorem errorTexts_nodup {c : Value} (whole : c.Unambiguous) : (errorTexts (audit c)).Nodup := by
  rw [audit_eq, ofPlan.eq_def]
  split
  · next fields =>
    have layout : Placed "Plan.layout" (if IsLayout (Table.get? fields "layout") then []
        else [⟨"Plan.layout", "must be one of: grid, flex, sidebar-layout.", .invalidLayout⟩]) := by
      split
      · exact placed_nil
      · exact placed_single _ _ _
    suffices behind : ∀ vs, Placed "Plan.layout" vs → (errorTexts (vs ++ _)).Nodup from behind _ layout
    intro vs layout
    split
    · next components listed =>
      have nodes := Value.unambiguous_list.mp (whole.entry listed)
      refine layout.nodup_append (y := "components[") (placed_children fun e member => ?_) (by decide)
      rw [← String.append_assoc]
      exact placed_ofNode (nodes e.1 (List.fst_mem_of_mem_zipIdx member)) 1 _
    · exact layout.nodup_append (placed_single "Plan.components" _ _) (by decide)
  · exact List.nodup_singleton _

/-- A prop whose name is what is wrong with another one. -/
def imitatingProps : Table Value := [("label must be a string.", .null), ("label", .int 1)]

def imitatingButton : Value := .object [("type", .str "Button"), ("props", .object imitatingProps)]

def imitating : Value := .object [("layout", .str "grid"), ("components", .list [imitatingButton])]

theorem unambiguous_imitating : imitating.Unambiguous := by
  simp only [imitating, imitatingButton, imitatingProps, Value.unambiguous_object, Value.unambiguous_list,
    List.forall_mem_cons]
  refine ⟨by decide, .str _, ⟨⟨by decide, .str _, ⟨by decide, .null, .int 1, ?_⟩, ?_⟩, ?_⟩, ?_⟩
  all_goals exact List.forall_mem_nil _

theorem audit_imitating : audit imitating = [
    ⟨"components[0].props.label must be a string.", "is not allowed for Button.", .propNotAllowed⟩,
    ⟨"components[0].props.label", "must be a string.", .notAString⟩] := by
  have arranged : IsLayout (some (.str "grid")) := ⟨"grid", by decide, rfl⟩
  have props : ofTable .button imitatingProps "components[0]" = [
      ⟨"components[0].props.label must be a string.", "is not allowed for Button.", .propNotAllowed⟩,
      ⟨"components[0].props.label", "must be a string.", .notAString⟩] := by
    decide +kernel
  have button : ofNode 1 "components[0]" imitatingButton = ofTable .button imitatingProps "components[0]" ++ [] := by
    rw [ofNode.eq_def]
    rfl
  rw [audit_eq]
  show (if IsLayout (some (.str "grid")) then [] else _) ++ (ofNode 1 "components[0]" imitatingButton ++ []) = _
  rw [if_pos arranged, button, props]
  rfl

theorem errorTexts_nodup_imitating : imitating.Unambiguous ∧ (errorTexts (audit imitating)).Nodup ∧
    (audit imitating).map Violation.path =
      ["components[0].props.label must be a string.", "components[0].props.label"] := by
  refine ⟨unambiguous_imitating, errorTexts_nodup unambiguous_imitating, ?_⟩
  rw [audit_imitating]
  rfl

end Report
end ScreenPlan
