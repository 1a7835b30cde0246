import Mathlib
import ScreenPlan.Decimal.Quantity

/-!
# The order of doubles

Doubles that are numbers are ordered linearly, and the difference of two finite ones is a number. So
a duration that has not reached a limit stays below it.
-/

namespace ScreenPlan

namespace Doubles
open Float.Model
open UnpackedFloat (packComponents unpackMantissa unpackExponent unpackMantissa_packComponents
  unpackExponent_packComponents)

/-! ### Differences -/

/-- Only a full exponent beside a mantissa that is not zero encodes what is not a number. -/
theorem isNaN_unpack {b : BitVec Format.binary64.numBits}
    (number : unpackExponent b ≠ -1#_ ∨ unpackMantissa b = 0#_) :
    (UnpackedFloat.unpack .binary64 b).isNaN = false := by
  unfold UnpackedFloat.unpack
  dsimp only
  split
  · next full =>
    split
    · rfl
    · next some => exact (number.elim (· full) some).elim
  · split
    · split <;> rfl
    · rfl

/-- Packing makes nothing of a number that is none. -/
theorem isNaN_pack {f : UnpackedFloat} (number : f.isNaN = false) : (pack f).isNaN = false := by
  refine isNaN_unpack (b := UnpackedFloat.pack .binary64 f) ?_
  fun_cases UnpackedFloat.pack Format.binary64 f with
  | case1 => cases number
  | case2 s => exact .inr unpackMantissa_packComponents
  | case3 s => exact .inr unpackMantissa_packComponents
  | case4 s m e hm biased overflow => exact .inr unpackMantissa_packComponents
  | case5 s m e hm bits biased fits normal =>
    refine .inl ?_
    rw [unpackExponent_packComponents, Ne, ← BitVec.toNat_inj]
    have small : biased < 2047 := by
      rw [Nat.not_le] at fits
      exact Nat.lt_of_succ_lt_succ fits
    have full : (-1#11 : BitVec 11).toNat = 2047 := by decide
    rw [BitVec.toNat_ofNat, full, Nat.mod_eq_of_lt (by omega)]
    omega
  | case6 s m e hm bits biased fits subnormal =>
    refine .inl ?_
    rw [unpackExponent_packComponents]
    decide

theorem isNaN_normalize (spec : Format) (m e : Int) (zero : UnpackedFloat.Sign) :
    (UnpackedFloat.normalize spec m e zero).isNaN = false := by
  have rounded (sign : UnpackedFloat.Sign) (n : Nat) : (UnpackedFloat.round spec sign n e).isNaN = false := by
    unfold UnpackedFloat.round UnpackedFloat.roundWithAccuracy
    dsimp only
    split <;> rfl
  unfold UnpackedFloat.normalize
  split
  · exact rounded _ _
  · rfl
  · exact rounded _ _

theorem isNaN_sub_unpacked (spec : Format) : ∀ {u v : UnpackedFloat}, u.isFinite = true → v.isFinite = true →
    (UnpackedFloat.sub spec u v).isNaN = false
  | .zero s, .zero t, _, _ => by
    rw [UnpackedFloat.sub]
    split <;> rfl
  | .zero _, .finite .., _, _ => rfl
  | .finite .., .zero _, _, _ => rfl
  | .finite .., .finite .., _, _ => isNaN_normalize ..

/-- Infinity taken from infinity is the one difference that is not a number. -/
theorem isNaN_sub {x y : Float} (hx : x.isFinite = true) (hy : y.isFinite = true) : (x - y).isNaN = false :=
  isNaN_pack (isNaN_sub_unpacked .binary64 hx hy)

/-! ### Comparisons -/

theorem magnitude_swap (e f : Int) (m n : Nat) :
    (compare f e).then (compare n m) = ((compare e f).then (compare m n)).swap := by
  rw [Ordering.swap_then, Int.compare_swap, Nat.compare_swap]

theorem compare_swap (u v : UnpackedFloat) : v.compare u = (u.compare v).map Ordering.swap := by
  rcases u with s | _ | s | ⟨s, m, e, hm⟩ <;> rcases v with t | _ | t | ⟨t, n, f, hn⟩ <;>
    (try cases s) <;> (try cases t) <;> try rfl
  · exact congrArg (fun o => some (Ordering.swap o)) (magnitude_swap e f m n)
  · exact congrArg some (magnitude_swap e f m n)

theorem compare_isSome (u v : UnpackedFloat) (hu : u.isNaN = false) (hv : v.isNaN = false) :
    (u.compare v).isSome = true := by
  rcases u with s | _ | s | ⟨s, m, e, hm⟩ <;> rcases v with t | _ | t | ⟨t, n, f, hn⟩ <;>
    (try cases s) <;> (try cases t) <;> first | rfl | (cases hu; done) | cases hv

/-- The order is linear. -/
theorem lt_of_not_le {x y : Float} (hx : x.isNaN = false) (hy : y.isNaN = false) (above : ¬ y ≤ x) : x < y := by
  have above : ¬ y.toModel.unpack.le x.toModel.unpack = true := fun le => above (decide_eq_true le)
  have some := compare_isSome y.toModel.unpack x.toModel.unpack hy hx
  suffices below : x.toModel.unpack.lt y.toModel.unpack = true from decide_eq_true below
  rw [UnpackedFloat.lt, compare_swap y.toModel.unpack x.toModel.unpack]
  rw [UnpackedFloat.le] at above
  cases order : y.toModel.unpack.compare x.toModel.unpack with
  | none =>
    rw [order] at some
    cases some
  | some o =>
    rw [order] at above
    cases o with
    | lt => exact (above rfl).elim
    | eq => exact (above rfl).elim
    | gt => rfl

theorem compare_of_lt {x y : Float} (below : x < y) : x.toModel.unpack.compare y.toModel.unpack = some .lt :=
  eq_of_beq (of_decide_eq_true below)

/-- The order is strict. -/
theorem not_le_of_lt {x y : Float} (below : x < y) : ¬ y ≤ x := by
  intro above
  have above : y.toModel.unpack.le x.toModel.unpack = true := of_decide_eq_true above
  rw [UnpackedFloat.le, compare_swap x.toModel.unpack, compare_of_lt below] at above
  cases above

theorem not_lt_of_lt {x y : Float} (below : x < y) : ¬ y < x := by
  intro above
  have swapped := compare_swap x.toModel.unpack y.toModel.unpack
  rw [compare_of_lt below, compare_of_lt above] at swapped
  cases swapped

/-- What is not a number is not comparable. -/
theorem not_le_of_isNaN {x y : Float} (none : y.isNaN = true) : ¬ y ≤ x := by
  intro le
  have none : y.toModel.unpack.isNaN = true := none
  have le : y.toModel.unpack.le x.toModel.unpack = true := of_decide_eq_true le
  cases form : y.toModel.unpack with
  | notANumber =>
    rw [form] at le
    cases le
  | _ =>
    rw [form] at none
    cases none

/-- What is infinite is not zero. -/
theorem neg_of_isInf {x : Float} (infinite : x.isInf = true) (notPos : ¬ 0 < x) : x < 0 := by
  have infinite : x.toModel.unpack.isInf = true := infinite
  have zero : (0 : Float).toModel.unpack = .zero .positive := by rfl
  have notPos : ¬ (0 : Float).toModel.unpack.lt x.toModel.unpack = true := fun lt => notPos (decide_eq_true lt)
  suffices below : x.toModel.unpack.lt (0 : Float).toModel.unpack = true from decide_eq_true below
  rw [zero] at notPos ⊢
  cases form : x.toModel.unpack with
  | infinity s =>
    rw [form] at notPos
    cases s with
    | negative => rfl
    | positive => exact (notPos rfl).elim
  | _ =>
    rw [form] at infinite
    cases infinite

end Doubles

namespace Quantity

/-- The quantity is greater than the double; an integer is compared without rounding it. -/
def Exceeds (q : Quantity) (x : Float) : Prop :=
  match q with
  | .whole n => (real x).below n = true
  | .real y => x < y

theorem exceeds_of_not_atMost {q : Quantity} {x : Float} (limit : ∀ y, q = .real y → y.isNaN = false)
    (number : x.isNaN = false) (above : q.atMost x = false) : q.Exceeds x := by
  cases q with
  | real y => exact Doubles.lt_of_not_le number (limit y rfl) (of_decide_eq_false above)
  | whole n =>
    rw [atMost, number] at above
    rw [Exceeds, below, number]
    by_cases infinite : x.isInf = true
    · rw [infinite] at above ⊢
      exact decide_eq_true (Doubles.neg_of_isInf infinite (of_decide_eq_false above))
    · rw [Bool.not_eq_true] at infinite
      rw [infinite] at above ⊢
      exact decide_eq_true (Int.not_le.mp (of_decide_eq_false above))

theorem atMost_of_exceeds {q : Quantity} {x : Float} (exceeds : q.Exceeds x) : q.atMost x = false := by
  cases q with
  | real y => exact decide_eq_false (Doubles.not_le_of_lt exceeds)
  | whole n =>
    rw [Exceeds, below] at exceeds
    rw [atMost]
    by_cases none : x.isNaN = true
    · rw [if_pos none]
    rw [if_neg none] at exceeds ⊢
    by_cases infinite : x.isInf = true
    · rw [if_pos infinite] at exceeds ⊢
      refine decide_eq_false fun positive => ?_
      exact Doubles.not_lt_of_lt (of_decide_eq_true exceeds) positive
    · rw [if_neg infinite] at exceeds ⊢
      exact decide_eq_false (Int.not_le.mpr (of_decide_eq_true exceeds))

end Quantity
end ScreenPlan
