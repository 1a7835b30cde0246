import ScreenPlan.Decimal.Shortest

/-!
# Nearest doubles

The double nearest to a quotient of natural numbers, and the exact whole part of a double. Ties go
to the even neighbour, a quotient beyond the largest double becomes infinite.
-/

namespace ScreenPlan

/-- The integer nearest to `num / den`; a half goes to the even one. -/
def roundedQuotient (num den : Nat) : Nat :=
  let below := num / den
  let rest := 2 * (num % den)
  if rest < den || (rest = den && below % 2 = 0) then below else below + 1

/-- The exponent of the leading binary digit of `num / den`; both are positive. -/
def leadingExponent (num den : Nat) : Int :=
  let guess : Int := (num.log2 : Int) - den.log2
  if den * Nat.pow 2 guess.toNat ≤ num * Nat.pow 2 (-guess).toNat then guess else guess - 1

/-- The bits of the double nearest to `num / den`. Doubles of one sign are numbered in order of
size, so a mantissa that rounds up to the next power of two ends up where it belongs. -/
def nearestBits (num den : Nat) : Nat :=
  if num = 0 then 0
  else
    let step := max (leadingExponent num den - 52) (-1074)
    (step + 1074).toNat * Nat.pow 2 52 +
      roundedQuotient (num * Nat.pow 2 (-step).toNat) (den * Nat.pow 2 step.toNat)

def infinityBits : Nat := 2047 * Nat.pow 2 52

/-- The double nearest to `num / den`. -/
def nearestDouble (num den : Nat) : Float :=
  Float.ofBits (UInt64.ofNat (min (nearestBits num den) infinityBits))

namespace Binary

/-- The greatest integer not above a finite double. -/
def floor (x : Float) : Int :=
  let b := ofFloat x
  let n : Int := (b.coefficient * Nat.pow 2 b.exponent.toNat : Nat)
  Int.fdiv (if x < 0 then -n else n) (Nat.pow 2 (-b.exponent).toNat : Nat)

end Binary
end ScreenPlan
