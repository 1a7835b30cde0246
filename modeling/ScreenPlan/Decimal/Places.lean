import ScreenPlan.Decimal.Nearest
import ScreenPlan.Decimal.Spelling

/-!
# Decimals of a given length

Doubles rounded to a number of digits, or of places behind the point. A half goes to the even
neighbour. All texts are magnitudes; signs are written elsewhere.
-/

namespace ScreenPlan

namespace Binary

/-- The number in units of `10 ^ e`, rounded. -/
def units (b : Binary) (e : Int) : Nat :=
  roundedQuotient (b.coefficient * Nat.pow 2 b.exponent.toNat * Nat.pow 10 (-e).toNat)
    (Nat.pow 2 (-b.exponent).toNat * Nat.pow 10 e.toNat)

/-- The exponent of the leading decimal digit. The shortest decimal may have been rounded up to a
power of ten. -/
def leadingTen (b : Binary) : Int :=
  let d := b.shortest .even
  let k := d.exponent + (Spelling.digitsOf d.digits).length - 1
  if Nat.pow 2 (-b.exponent).toNat * Nat.pow 10 k.toNat ≤
      b.coefficient * Nat.pow 2 b.exponent.toNat * Nat.pow 10 (-k).toNat
  then k else k - 1

/-- The number as `n` digits and the exponent of the first one. -/
def significant (b : Binary) (n : Nat) : List Char × Int :=
  if b.coefficient = 0 then (List.replicate n '0', 0)
  else
    let k := b.leadingTen
    let rounded := b.units (k + 1 - n)
    if Nat.pow 10 n ≤ rounded then (Spelling.digitsOf (rounded / 10), k + 1)
    else (Spelling.digitsOf rounded, k)

end Binary

namespace Places

/-- How a number of a given length is laid out. -/
structure Layout where
  /-- A point stands even where nothing follows it, and zeros at the end stay. -/
  full : Bool
  spelling : Spelling

def join (l : Layout) (whole fraction : List Char) : List Char :=
  if fraction.isEmpty && !l.full then whole else whole ++ '.' :: fraction

/-- `places` digits behind the point. -/
def fixed (l : Layout) (places : Nat) (b : Binary) : List Char :=
  let digits := Spelling.digitsOf (b.units (-places))
  let padded := List.replicate (places + 1 - digits.length) '0' ++ digits
  let whole := padded.length - places
  join l (padded.take whole) (padded.drop whole)

/-- One digit before the point, the others behind it, and an exponent. -/
def scientific (l : Layout) (digits : List Char) (k : Int) : List Char :=
  join l (digits.take 1) (digits.drop 1) ++ l.spelling.exponentOf k

/-- At most `digits` digits; zeros at the end carry no information. -/
def general (l : Layout) (digits : Nat) (b : Binary) : List Char :=
  let (rounded, k) := b.significant digits
  let kept := if l.full then rounded else Spelling.significant rounded
  if k < -4 ∨ digits ≤ k then scientific l kept k
  else if k < 0 then join l ['0'] (List.replicate (-k - 1).toNat '0' ++ kept)
  else
    let place := k.toNat + 1
    join l (kept.take place ++ List.replicate (place - kept.length) '0') (kept.drop place)

end Places
end ScreenPlan
