import Mathlib.Data.List.Nodup
import ScreenPlan.Catalog

/-!
# Projections

A table of props is projected to the entries that a kind allows, in catalog order. Further entries make no difference
to that, nor does the order of the table; a table that holds nothing but allowed entries is put into order and loses
none of them.
-/

namespace ScreenPlan

variable {α : Type}

namespace Table
variable {t : Table α} {name : String} {v : α}

/-- Where no name occurs twice, a name stands for its one entry. -/
theorem get?_eq_some_iff (distinct : t.names.Nodup) : t.get? name = some v ↔ (name, v) ∈ t := by
  refine ⟨mem_of_get?, fun member => ?_⟩
  induction t with
  | nil => cases member
  | cons e t ih =>
    obtain ⟨k, w⟩ := e
    obtain ⟨fresh, others⟩ := List.nodup_cons.mp distinct
    rw [get?_cons]
    rcases List.mem_cons.mp member with same | later
    · obtain ⟨rfl, rfl⟩ := Prod.mk.inj same
      exact if_pos rfl
    · rw [if_neg, ih others later]
      rintro rfl
      exact fresh (List.mem_map.mpr ⟨_, later, rfl⟩)

end Table

namespace Spec
variable {s : Spec} {props props' : Table α} {e : String × α}

theorem mem_project : e ∈ s.project props ↔ e.1 ∈ s.allowed ∧ props.get? e.1 = some e.2 := by
  rw [project, List.mem_filterMap]
  constructor
  · rintro ⟨name, allowed, found⟩
    obtain ⟨v, value, rfl⟩ := Option.map_eq_some_iff.mp found
    exact ⟨allowed, value⟩
  · rintro ⟨allowed, value⟩
    exact ⟨e.1, allowed, by rw [value]; rfl⟩

theorem names_project (s : Spec) (props : Table α) : (s.project props).names = s.allowed.filter props.has := by
  unfold project Table.names
  induction s.allowed with
  | nil => rfl
  | cons name names ih =>
    rw [List.filterMap_cons, List.filter_cons, Table.has]
    cases props.get? name with
    | none => exact ih
    | some v => exact congrArg (name :: ·) ih

theorem project_nil (s : Spec) : s.project ([] : Table α) = [] := List.filterMap_eq_nil_iff.mpr fun _ _ => rfl

/-- Nothing but the values under allowed names matters. -/
theorem project_congr (same : ∀ name ∈ s.allowed, props.get? name = props'.get? name) :
    s.project props = s.project props' := by
  apply List.filterMap_congr
  intro name allowed
  rw [same name allowed]

/-- The allowed entries of a table as they stand in it. -/
def allowedPart (s : Spec) (props : Table α) : Table α := props.filter fun e => s.allows e.1

theorem mem_allowedPart : e ∈ s.allowedPart props ↔ e ∈ props ∧ e.1 ∈ s.allowed := by
  rw [allowedPart, List.mem_filter, allows, decide_eq_true_iff]

/-- What is projected are the allowed entries with their values, each once and in catalog order. -/
structure Projection (s : Spec) (props projected : Table α) : Prop where
  entries : ∀ e, e ∈ projected ↔ e ∈ props ∧ e.1 ∈ s.allowed
  once : projected.names.Nodup
  ordered : projected.names.Sublist s.allowed

variable (single : s.allowed.Nodup)
include single

theorem nodup_names_project (props : Table α) : (s.project props).names.Nodup := by
  rw [names_project]
  exact single.filter _

theorem projection_project (distinct : props.names.Nodup) : Projection s props (s.project props) where
  entries e := by
    rw [mem_project, Table.get?_eq_some_iff distinct]
    exact and_comm
  once := nodup_names_project single props
  ordered := by
    rw [names_project]
    exact List.filter_sublist

theorem perm_project (distinct : props.names.Nodup) : (s.project props).Perm (s.allowedPart props) := by
  have once : (s.project props).Nodup := List.Nodup.of_map _ (nodup_names_project single props)
  have once' : (s.allowedPart props).Nodup := (List.Nodup.of_map _ distinct).filter _
  rw [List.perm_ext_iff_of_nodup once once']
  intro e
  rw [(projection_project single distinct).entries, mem_allowedPart]

theorem project_project (props : Table α) : s.project (s.project props) = s.project props := by
  apply project_congr
  intro name allowed
  ext v
  rw [Table.get?_eq_some_iff (nodup_names_project single props), mem_project]
  exact and_iff_right allowed

/-- Two tables have the same projection exactly if they have the same allowed entries, in whatever order. -/
theorem project_eq_iff (distinct : props.names.Nodup) (distinct' : props'.names.Nodup) :
    s.project props = s.project props' ↔ (s.allowedPart props).Perm (s.allowedPart props') := by
  constructor
  · intro same
    have perm := (perm_project single distinct).symm
    rw [same] at perm
    exact perm.trans (perm_project single distinct')
  · intro perm
    apply project_congr
    intro name allowed
    ext v
    have entry := perm.mem_iff (a := (name, v))
    rw [mem_allowedPart, mem_allowedPart, and_iff_left allowed, and_iff_left allowed] at entry
    rw [Table.get?_eq_some_iff distinct, Table.get?_eq_some_iff distinct', entry]

omit single in
theorem allowedPart_eq_self (allowed : ∀ name ∈ props.names, name ∈ s.allowed) : s.allowedPart props = props := by
  apply List.filter_eq_self.mpr
  intro e member
  exact decide_eq_true (allowed e.1 (List.mem_map_of_mem member))

end Spec

namespace Kind

theorem nodup_allowed (kind : Kind) : kind.spec.allowed.Nodup := by
  cases kind <;> decide

theorem projectRaw_name (kind : Kind) (props : Table Value) :
    projectRaw (.str kind.name) (.object props) = kind.spec.project props := by
  have known : Kind.ofValue? (.str kind.name) = some kind := named?_name kind
  rw [projectRaw, known]
  rfl

end Kind

end ScreenPlan
