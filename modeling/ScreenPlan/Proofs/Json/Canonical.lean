import ScreenPlan.Proofs.Json.Encoders
import ScreenPlan.Proofs.Json.Injective

/-!
# Canonical texts

Sorting the keys of all objects leaves no choice of their order, so the canonical text of two values without
floating-point numbers is the same if and only if they differ in the order of keys alone.
-/

namespace ScreenPlan

namespace Value

/-- The same value up to the order of keys, at any depth. -/
inductive Alike : Value → Value → Prop
  | same (v : Value) : Alike v v
  | list {xs ys : List Value} (length : xs.length = ys.length)
      (each : ∀ (i : Nat) (hx : i < xs.length) (hy : i < ys.length), Alike xs[i] ys[i]) :
      Alike (.list xs) (.list ys)
  | object {fs gs : Table Value} (names : ∀ name, name ∈ fs.names ↔ name ∈ gs.names)
      (each : ∀ name v w, (name, v) ∈ fs → (name, w) ∈ gs → Alike v w) : Alike (.object fs) (.object gs)

/-! ### The order of keys -/

theorem names_sortedMembers (fs : Table Value) : Table.names (sortedMembers fs) = fs.names := by
  rw [sortedMembers_eq_map, Table.names, List.map_map]
  rfl

theorem mem_names {fs : Table Value} {name : String} : name ∈ fs.names ↔ ∃ v, (name, v) ∈ fs := by
  simp [Table.names]

theorem mem_sortedMembers {fs : Table Value} {name : String} {u : Value} :
    (name, u) ∈ sortedMembers fs ↔ ∃ v, (name, v) ∈ fs ∧ v.sorted = u := by
  simp [sortedMembers_eq_map]

theorem nodup_sortedMembers {fs : Table Value} (distinct : fs.names.Nodup) :
    ((sortedMembers fs).map (·.1)).Nodup := by
  rw [← names_sortedMembers fs] at distinct
  exact distinct

theorem perm_sorted (fs : Table Value) :
    ((sortedMembers fs).mergeSort fun a b => decide (a.1 ≤ b.1)).Perm (sortedMembers fs) :=
  List.mergeSort_perm _ _

theorem mem_sorted {fs : Table Value} {name : String} {u : Value} :
    (name, u) ∈ ((sortedMembers fs).mergeSort fun a b => decide (a.1 ≤ b.1)) ↔ ∃ v, (name, v) ∈ fs ∧ v.sorted = u := by
  rw [(perm_sorted fs).mem_iff, mem_sortedMembers]

theorem nodup_sorted {fs : Table Value} (distinct : fs.names.Nodup) :
    (Table.names ((sortedMembers fs).mergeSort fun a b => decide (a.1 ≤ b.1))).Nodup := by
  have names := (perm_sorted fs).map (·.1)
  exact names.nodup_iff.mpr (nodup_sortedMembers distinct)

/-- The order of distinct names leaves no choice. -/
theorem mergeSort_eq_of_perm {fs gs : Table Value} (perm : fs.Perm gs) (distinct : (gs.map (·.1)).Nodup) :
    (fs.mergeSort fun a b => decide (a.1 ≤ b.1)) = gs.mergeSort fun a b => decide (a.1 ≤ b.1) := by
  have ordered (hs : Table Value) :
      (hs.mergeSort fun a b => decide (a.1 ≤ b.1)).Pairwise fun a b => decide (a.1 ≤ b.1) = true := by
    refine List.pairwise_mergeSort (fun a b c ab bc => ?_) (fun a b => ?_) hs
    · exact decide_eq_true (String.le_trans (of_decide_eq_true ab) (of_decide_eq_true bc))
    · rw [Bool.or_eq_true, decide_eq_true_eq, decide_eq_true_eq]
      exact String.le_total a.1 b.1
  refine List.Perm.eq_of_pairwise (fun a b ha hb ab ba => ?_) (ordered fs) (ordered gs)
    ((List.mergeSort_perm fs _).trans (perm.trans (List.mergeSort_perm gs _).symm))
  have name : a.1 = b.1 := String.le_antisymm (of_decide_eq_true ab) (of_decide_eq_true ba)
  exact List.inj_on_of_nodup_map distinct (perm.mem_iff.mp (List.mem_mergeSort.mp ha)) (List.mem_mergeSort.mp hb) name

theorem exact_sorted {v : Value} (plain : v.Exact) : v.sorted.Exact := by
  induction plain with
  | @list xs each ih =>
    rw [sorted, sortedItems_eq_map]
    exact .list (List.forall_mem_map.mpr ih)
  | @object fs distinct each ih =>
    rw [sorted]
    refine .object (nodup_sorted distinct) fun e he => ?_
    obtain ⟨v, hv, same⟩ := mem_sorted.mp he
    exact same ▸ ih _ hv
  | null => exact .null
  | bool b => exact .bool b
  | int n => exact .int n
  | str text => exact .str text

/-- Values that are the same once sorted differ in the order of keys alone. -/
theorem alike_of_sorted {v w : Value} (plain : v.Exact) (plain' : w.Exact) (same : v.sorted = w.sorted) :
    Alike v w := by
  induction plain generalizing w with
  | @list xs each ih =>
    cases plain' with
    | @list ys each' =>
      rw [sorted, sorted, sortedItems_eq_map, sortedItems_eq_map] at same
      have items := Value.list.inj same
      have length : xs.length = ys.length := by simpa using congrArg List.length items
      refine .list length fun i hx hy => ih _ (List.getElem_mem hx) (each' _ (List.getElem_mem hy)) ?_
      have item := congrArg (fun zs => zs[i]?) items
      simpa [hx, hy] using item
    | _ => cases same
  | @object fs distinct each ih =>
    cases plain' with
    | @object gs distinct' each' =>
      rw [sorted, sorted] at same
      have perm : (sortedMembers fs).Perm (sortedMembers gs) :=
        (perm_sorted fs).symm.trans (Value.object.inj same ▸ perm_sorted gs)
      refine .object (fun name => ?_) fun name v w hv hw => ih _ hv (each' _ hw) ?_
      · rw [← names_sortedMembers fs, ← names_sortedMembers gs]
        exact (perm.map (·.1)).mem_iff
      · have hv : (name, v.sorted) ∈ sortedMembers gs := perm.mem_iff.mp (mem_sortedMembers.mpr ⟨v, hv, rfl⟩)
        have hw : (name, w.sorted) ∈ sortedMembers gs := mem_sortedMembers.mpr ⟨w, hw, rfl⟩
        have once := List.inj_on_of_nodup_map (nodup_sortedMembers distinct') hv hw rfl
        exact (Prod.mk.inj once).2
    | _ => cases same
  | null | bool | int | str =>
    cases plain' <;> cases same
    exact .same _

theorem sorted_of_alike {v w : Value} (alike : Alike v w) (plain : v.Exact) (plain' : w.Exact) :
    v.sorted = w.sorted := by
  induction alike with
  | same => rfl
  | @list xs ys length each ih =>
    cases plain with | list plain =>
    cases plain' with | list plain' =>
    rw [sorted, sorted, sortedItems_eq_map, sortedItems_eq_map]
    refine congrArg Value.list (List.ext_getElem (by simpa using length) fun i hx hy => ?_)
    rw [List.length_map] at hx hy
    rw [List.getElem_map, List.getElem_map]
    exact ih i hx hy (plain _ (List.getElem_mem hx)) (plain' _ (List.getElem_mem hy))
  | @object fs gs names each ih =>
    cases plain with | object distinct plain =>
    cases plain' with | object distinct' plain' =>
    have values {name : String} {v w : Value} (hv : (name, v) ∈ fs) (hw : (name, w) ∈ gs) : v.sorted = w.sorted :=
      ih name v w hv hw (plain _ hv) (plain' _ hw)
    have members : ∀ e, e ∈ sortedMembers fs ↔ e ∈ sortedMembers gs := by
      rintro ⟨name, u⟩
      rw [mem_sortedMembers, mem_sortedMembers]
      constructor
      · rintro ⟨v, hv, rfl⟩
        obtain ⟨w, hw⟩ := mem_names.mp ((names name).mp (mem_names.mpr ⟨v, hv⟩))
        exact ⟨w, hw, (values hv hw).symm⟩
      · rintro ⟨w, hw, rfl⟩
        obtain ⟨v, hv⟩ := mem_names.mp ((names name).mpr (mem_names.mpr ⟨w, hw⟩))
        exact ⟨v, hv, values hv hw⟩
    have perm : (sortedMembers fs).Perm (sortedMembers gs) :=
      (List.perm_ext_iff_of_nodup (nodup_sortedMembers distinct).of_map (nodup_sortedMembers distinct').of_map).mpr
        members
    rw [sorted, sorted, mergeSort_eq_of_perm perm (nodup_sortedMembers distinct')]

end Value

namespace Json
open Value (Exact Alike sorted_of_alike alike_of_sorted exact_sorted)

variable {v w : Value} {text : String}

/-- Whichever encoder takes the value. -/
theorem text_of_canonical (written : v.canonical = .ok text) :
    ∃ s, text = String.ofList (print s .compact 0 v.sorted) := by
  unfold Value.canonical at written
  split at written
  · next encoded => exact ⟨_, text_of_encode (encoded.trans written)⟩
  · exact ⟨_, text_of_encode written⟩

/-- One canonical text stands for one value up to the order of keys. -/
theorem alike_of_canonical (plain : v.Exact) (plain' : w.Exact) (written : v.canonical = .ok text)
    (written' : w.canonical = .ok text) : Alike v w := by
  obtain ⟨s, form⟩ := text_of_canonical written
  obtain ⟨t, form'⟩ := text_of_canonical written'
  have ends : Ends [] := nofun
  have same : print s .compact 0 v.sorted ++ [] = print t .compact 0 w.sorted ++ [] := by
    rw [List.append_nil, List.append_nil, ← String.toList_ofList (l := print s .compact 0 v.sorted), ← form, form',
      String.toList_ofList]
  exact alike_of_sorted plain plain' (print_inj (exact_sorted plain) (exact_sorted plain') ends ends same).1

theorem canonical_of_alike (plain : v.Exact) (plain' : w.Exact) (alike : Alike v w) : v.canonical = w.canonical := by
  rw [Value.canonical, Value.canonical, sorted_of_alike alike plain plain']

example : (Value.object [("b", .int 1), ("a", .null)]).canonical =
    (Value.object [("a", .null), ("b", .int 1)]).canonical := by cbv

theorem printed_canonical (plain : v.Exact) (written : v.canonical = .ok text) :
    text ≠ "" ∧ Printed text.toList := by
  obtain ⟨s, form⟩ := text_of_canonical written
  have given := String.toList_ofList (l := print s .compact 0 v.sorted)
  rw [← form] at given
  refine ⟨?_, given ▸ printed_print (exact_sorted plain) s 0⟩
  rintro rfl
  obtain ⟨c, t, first, -⟩ := head_print (exact_sorted plain) s 0
  rw [first] at given
  cases given

end Json
end ScreenPlan
