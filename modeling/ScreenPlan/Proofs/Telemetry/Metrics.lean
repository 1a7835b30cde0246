import ScreenPlan.Proofs.Decimal.Finite
import ScreenPlan.Telemetry.Metrics

/-!
# Counting

A counter goes up by one for its label alone, and so does the sum over all labels. A duration that is a number is
counted in one place of the histogram.
-/

namespace ScreenPlan

theorem Family.total_bump (f : Family) (label : String) : (f.bump label).total = f.total + 1 := by
  suffices replaced : ∀ n, total (f.put label n) + f.count label = f.total + n by
    have := replaced (f.count label + 1)
    rw [bump]
    omega
  intro n
  induction f with
  | nil => simp [Table.put, total, count]
  | cons e f ih =>
    obtain ⟨name, m⟩ := e
    by_cases same : name = label
    · simp only [Table.put, same, if_true, total, count, List.foldr_cons, Table.get?_cons, Option.getD_some]
      omega
    · simp only [Table.put, same, if_false, total, count, List.foldr_cons, Table.get?_cons] at ih ⊢
      omega

namespace Histogram

variable {x : Float} {bs : List Float} {ns : List Nat} {h : Histogram}

theorem length_place : (place x bs ns).length = ns.length := by
  induction bs, ns using place.induct x with
  | case1 b bs n ns below => simp [place, below]
  | case2 b bs n ns above ih => simp [place, above, ih]
  | case3 bs ns none => rw [place]; exact none

/-- What one of the bounds is at least as large as is counted once. -/
theorem sum_place (bounded : ∃ b ∈ bs, x ≤ b) (each : ns.length = bs.length) :
    (place x bs ns).foldr (· + ·) 0 = ns.foldr (· + ·) 0 + 1 := by
  induction bs, ns using place.induct x with
  | case1 b bs n ns below =>
    simp only [place, below, if_true, List.foldr_cons]
    omega
  | case2 b bs n ns above ih =>
    obtain ⟨c, among, below⟩ := bounded
    have later : c ∈ bs := (List.mem_cons.mp among).resolve_left fun same => above (same ▸ below)
    have := ih ⟨c, later, below⟩ (Nat.succ.inj each)
    simp only [place, above, if_false, List.foldr_cons]
    omega
  | case3 bs ns none =>
    obtain ⟨b, bs, rfl⟩ := List.exists_cons_of_ne_nil (List.ne_nil_of_mem bounded.choose_spec.1)
    obtain ⟨n, ns, rfl⟩ := List.exists_cons_of_length_eq_add_one each
    exact (none b bs n ns rfl rfl).elim

/-- One figure for each bound. -/
def Regular (h : Histogram) : Prop := h.counts.length = bounds.length

theorem regular_empty : empty.Regular := List.length_map _

theorem regular_observe (regular : h.Regular) (x : Float) : (h.observe x).Regular := length_place.trans regular

theorem count_observe (regular : h.Regular) (number : x.isNaN = false) : (h.observe x).count = h.count + 1 := by
  have infinite : (1.0 / 0.0 : Float) ∈ bounds := by simp [bounds]
  exact sum_place ⟨_, infinite, Doubles.le_infinity number⟩ regular

end Histogram
end ScreenPlan
