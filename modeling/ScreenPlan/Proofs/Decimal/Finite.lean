import ScreenPlan.Decimal.Nearest
import ScreenPlan.Proofs.Decimal.Order

/-!
# Finite doubles

Rounding a quotient gives a number, which is finite or infinite, and what is finite stays so with the other sign. No
number is above infinity.
-/

namespace ScreenPlan.Doubles
open Float.Model
open UnpackedFloat (unpackMantissa unpackExponent unpackExponent_packComponents)

theorem isFinite_iff {x : Float} : x.isFinite = true ↔ (x.isNaN || x.isInf) = false := by
  change x.toModel.unpack.isFinite = true ↔ (x.toModel.unpack.isNaN || x.toModel.unpack.isInf) = false
  cases x.toModel.unpack <;> simp [UnpackedFloat.isFinite, UnpackedFloat.isNaN, UnpackedFloat.isInf]

/-! ### Rounding -/

theorem toNat_unpackExponent (b : BitVec Format.binary64.numBits) :
    (unpackExponent b).toNat = b.toNat / 2 ^ 52 % 2 ^ 11 := by
  simp [unpackExponent, Nat.shiftRight_eq_div_pow]

theorem full_exponent : (-1#11 : BitVec 11).toNat = 2047 := by decide

/-- Doubles of one sign are numbered in order of size, infinity being the last of them. -/
theorem isNaN_ofBits {n : Nat} (bounded : n ≤ infinityBits) : (Float.ofBits (UInt64.ofNat n)).isNaN = false := by
  have infinity : infinityBits = 2047 * 2 ^ 52 := rfl
  refine isNaN_pack (isNaN_unpack ?_)
  rcases Nat.lt_or_eq_of_le bounded with below | rfl
  · left
    rw [Ne, ← BitVec.toNat_inj, toNat_unpackExponent, full_exponent]
    have whole : (UInt64.ofNat n).toBitVec.toNat = n := Nat.mod_eq_of_lt (by omega)
    rw [whole]
    omega
  · right
    decide +kernel

theorem isNaN_nearestDouble (num den : Nat) : (nearestDouble num den).isNaN = false :=
  isNaN_ofBits (Nat.min_le_right _ _)

/-! ### Signs -/

theorem isFinite_unpack {b : BitVec Format.binary64.numBits} (small : unpackExponent b ≠ -1#_) :
    (UnpackedFloat.unpack .binary64 b).isFinite = true := by
  unfold UnpackedFloat.unpack
  dsimp only
  rw [if_neg small]
  split
  · split <;> rfl
  · rfl

/-- The exponent of what was unpacked can be packed again. -/
theorem exponent_unpack {b : BitVec Format.binary64.numBits} {s : UnpackedFloat.Sign} {m : Nat} {e : Int}
    {hm : 0 < m} (form : UnpackedFloat.unpack .binary64 b = .finite s m e hm) : e + 1075 < 2047 := by
  have bound : (unpackExponent b).toNat < 2048 := (unpackExponent b).isLt
  have bias : Format.binary64.exponentBias = 1023 := rfl
  unfold UnpackedFloat.unpack at form
  dsimp only at form
  split at form
  · split at form <;> cases form
  · next small =>
    have small : (unpackExponent b).toNat ≠ 2047 := fun full => small (BitVec.eq_of_toNat_eq full)
    split at form
    · next subnormal =>
      have zero : (unpackExponent b).toNat = 0 := by rw [subnormal]; rfl
      split at form
      · cases form
      · injection form with _ _ same
        rw [zero, bias] at same
        omega
    · injection form with _ _ same
      rw [bias] at same
      omega

theorem isFinite_pack {s : UnpackedFloat.Sign} {m : Nat} {e : Int} {hm : 0 < m} (fits : e + 1075 < 2047) :
    (pack (.finite s m e hm)).isFinite = true := by
  have bias : Format.binary64.exponentBias = 1023 := rfl
  refine isFinite_unpack (b := UnpackedFloat.pack .binary64 (.finite s m e hm)) ?_
  unfold UnpackedFloat.pack
  dsimp only
  rw [bias]
  split
  · next overflow =>
    have overflow : 2048 ≤ (e + 1023 + 52).toNat + 1 := overflow
    omega
  · split
    · rw [unpackExponent_packComponents, Ne, ← BitVec.toNat_inj, full_exponent, BitVec.toNat_ofNat]
      have small : (e + 1023 + 52).toNat < 2047 := by omega
      exact Nat.ne_of_lt (Nat.lt_of_le_of_lt (Nat.mod_le _ _) small)
    · rw [unpackExponent_packComponents]
      decide

/-- Another sign is all that changes. -/
theorem isFinite_neg {x : Float} (finite : x.isFinite = true) : (-x).isFinite = true := by
  have finite : x.toModel.unpack.isFinite = true := finite
  change (pack x.toModel.unpack.neg).isFinite = true
  cases form : x.toModel.unpack with
  | zero s => cases s <;> decide
  | finite s m e hm => exact isFinite_pack (exponent_unpack form)
  | _ =>
    rw [form] at finite
    cases finite

/-! ### The top of the order -/

/-- Every number is at most infinite. -/
theorem le_infinity {x : Float} (number : x.isNaN = false) : x ≤ 1.0 / 0.0 := by
  have number : x.toModel.unpack.isNaN = false := number
  have infinity : (1.0 / 0.0 : Float).toModel.unpack = .infinity .positive := by rfl
  suffices below : x.toModel.unpack.le (1.0 / 0.0 : Float).toModel.unpack = true from decide_eq_true below
  rw [infinity]
  cases form : x.toModel.unpack with
  | notANumber =>
    rw [form] at number
    cases number
  | infinity s => cases s <;> rfl
  | zero | finite => rfl

/-- An infinite age reaches every limit that is a number. -/
theorem atMost_infinity {q : Quantity} (number : ∀ y, q = .real y → y.isNaN = false) :
    q.atMost (1.0 / 0.0) = true := by
  cases q with
  | real y => exact decide_eq_true (le_infinity (number y rfl))
  | whole n =>
    have number : (1.0 / 0.0 : Float).isNaN = false := by rfl
    have infinite : (1.0 / 0.0 : Float).isInf = true := by rfl
    rw [Quantity.atMost, number, infinite]
    rfl

end ScreenPlan.Doubles
