/-!
# Shortest decimals

The decimal with the fewest digits among those that read back as a given binary number, and of
those the nearest to it; where two are equally near, a tie rule decides. All arithmetic is exact.
-/

namespace ScreenPlan

/-- `digits * 10 ^ exponent`. -/
structure Decimal where
  digits : Nat
  exponent : Int
  deriving DecidableEq, Repr

/-- The positive number `coefficient * 2 ^ exponent`. Its lower neighbour is half as far away as
its upper one when `narrow` holds. -/
structure Binary where
  coefficient : Nat
  exponent : Int
  narrow : Bool
  deriving DecidableEq, Repr

/-- Which of two equally near decimals is taken. -/
inductive Tie where
  /-- The one with the even last digit. -/
  | even
  /-- The larger one. -/
  | up
  deriving DecidableEq, Repr

/-- Is the lower one of two equally near neighbours taken? Its digits are `below`. -/
def Tie.takesLower (t : Tie) (below : Nat) : Bool :=
  match t with
  | .even => below % 2 = 0
  | .up => false

namespace Binary

/-- The magnitude of a finite, nonzero double. -/
def ofFloat (x : Float) : Binary :=
  let bits : Nat := x.toBits.toNat
  let fraction : Nat := bits % Nat.pow 2 52
  let scale : Nat := bits / Nat.pow 2 52 % Nat.pow 2 11
  if scale = 0 then ⟨fraction, -1074, false⟩
  else ⟨fraction + Nat.pow 2 52, (scale : Int) - 1075, fraction = 0 && 1 < scale⟩

/-- The point `digits * 10 ^ e` of a decimal grid measured against the number in common units:
the number itself and the ends of the interval that rounds to it are `value`, `low` and `high`,
one step of the grid is `step`. -/
structure Ruler where
  value : Nat
  low : Nat
  high : Nat
  step : Nat
  closed : Bool

def ruler (b : Binary) (e : Int) : Ruler :=
  let up : Nat := Nat.pow 2 (b.exponent - 2).toNat * Nat.pow 10 (-e).toNat
  let down : Nat := Nat.pow 2 (2 - b.exponent).toNat * Nat.pow 10 e.toNat
  let quarters := 4 * b.coefficient
  { value := quarters * up
    low := (quarters - if b.narrow then 1 else 2) * up
    high := (quarters + 2) * up
    step := down
    closed := b.coefficient % 2 = 0 }

/-- Does the grid point read back as the number? -/
def Ruler.hits (r : Ruler) (digits : Nat) : Bool :=
  let p := digits * r.step
  if r.closed then r.low ≤ p && p ≤ r.high else r.low < p && p < r.high

/-- The better of the number's two neighbours on the grid, if one of them reads back. -/
def Ruler.best? (r : Ruler) (tie : Tie) : Option Nat :=
  let below := r.value / r.step
  let toBelow := r.value - below * r.step
  let toAbove := (below + 1) * r.step - r.value
  match r.hits below, r.hits (below + 1) with
  | true, true =>
    if toBelow < toAbove || (toBelow = toAbove && tie.takesLower below) then some below
    else some (below + 1)
  | true, false => some below
  | false, true => some (below + 1)
  | false, false => none

/-- Tries ever finer grids, starting at step `10 ^ e`. -/
def search (b : Binary) (tie : Tie) : Nat → Int → Decimal
  | 0, e => ⟨(b.ruler e).value / (b.ruler e).step, e⟩
  | n + 1, e =>
    match (b.ruler e).best? tie with
    | some digits => ⟨digits, e⟩
    | none => search b tie n (e - 1)

/-- A power of ten at least as large as the number. -/
def ceiling (b : Binary) : Int :=
  ((b.coefficient.log2 : Int) + 1 + b.exponent) * 30103 / 100000 + 1

/-- Seventeen digits always read back, and the first grid is at most three steps too coarse. -/
def shortest (b : Binary) (tie : Tie) : Decimal := b.search tie 21 b.ceiling

end Binary
end ScreenPlan
