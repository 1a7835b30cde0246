import ScreenPlan.Decimal.Nearest
import ScreenPlan.Json.Value

/-!
# Quantities

Amounts and durations as they are handed in: exact integers of any size, or doubles.
-/

namespace ScreenPlan

inductive Quantity where
  | whole (n : Int)
  | real (x : Float)

/-- What lies beyond the largest double: an integer, or the quotient of two. -/
inductive QuantityError where
  | tooLarge
  | quotientTooLarge
  deriving DecidableEq, Repr

def QuantityError.message : QuantityError → String
  | .tooLarge => "int too large to convert to float"
  | .quotientTooLarge => "integer division result too large for a float"

namespace Quantity

/-- A switch counts as one or zero. -/
def ofValue? : Value → Option Quantity
  | .int n => some (.whole n)
  | .float x => some (.real x)
  | .bool b => some (.whole (if b then 1 else 0))
  | _ => none

/-- The nearest double, if it is finite or was infinite already. -/
def toFloat : Quantity → Except QuantityError Float
  | .real x => .ok x
  | .whole n =>
    let x := nearestDouble n.natAbs 1
    if x.isInf then .error .tooLarge else .ok (if n < 0 then -x else x)

def isNegative : Quantity → Bool
  | .whole n => decide (n < 0)
  | .real x => decide (x < 0)

def isPositive : Quantity → Bool
  | .whole n => decide (0 < n)
  | .real x => decide (0 < x)

def toValue : Quantity → Value
  | .whole n => .int n
  | .real x => .float x

/-- Integers are added exactly. -/
def add : Quantity → Quantity → Except QuantityError Quantity
  | .whole m, .whole n => .ok (.whole (m + n))
  | a, b =>
    match a.toFloat, b.toFloat with
    | .ok x, .ok y => .ok (.real (x + y))
    | .error e, _ => .error e
    | _, .error e => .error e

/-- The quotient of integers is rounded once. -/
def quotient : Quantity → Quantity → Except QuantityError Float
  | .whole m, .whole n =>
    let x := nearestDouble m.natAbs n.natAbs
    if x.isInf then .error .quotientTooLarge
    else .ok (if decide (m < 0) = decide (n < 0) then x else -x)
  | a, b =>
    match a.toFloat, b.toFloat with
    | .ok x, .ok y => .ok (x / y)
    | .error e, _ => .error e
    | _, .error e => .error e

/-- Is the quantity less than `n`? -/
def below (q : Quantity) (n : Int) : Bool :=
  match q with
  | .whole m => decide (m < n)
  | .real x =>
    if x.isNaN then false
    else if x.isInf then decide (x < 0)
    else decide (Binary.floor x < n)

/-- Is the quantity at most `x`? An integer is compared without rounding it. -/
def atMost (q : Quantity) (x : Float) : Bool :=
  match q with
  | .real y => decide (y ≤ x)
  | .whole n =>
    if x.isNaN then false
    else if x.isInf then decide (0 < x)
    else decide (n ≤ Binary.floor x)

end Quantity
end ScreenPlan
