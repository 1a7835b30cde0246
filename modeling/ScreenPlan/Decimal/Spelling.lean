import ScreenPlan.Decimal.Shortest

/-!
# Spelling of floating-point numbers

A spelling says where positional notation ends, how an exponent is written and what stands for the
numbers that are not finite. Digits are always the shortest ones that read back; of two equally
near numbers with so few digits the one with the even last digit is taken, unless the spelling says
otherwise.
-/

namespace ScreenPlan

/-- Numbers whose leading digit stands at `10 ^ k` with `least ≤ k < bound` are written positionally. -/
structure Spelling where
  least : Int
  bound : Int := 16
  /-- A whole number keeps a point and a zero. -/
  point : Bool := true
  tie : Tie := .even
  plus : Bool
  twoDigitExponent : Bool
  nan : String
  infinity : String
  negativeInfinity : String

namespace Spelling

def digitsOf (n : Nat) : List Char := Nat.toDigits 10 n

def positional (s : Spelling) (digits : List Char) (k : Int) : List Char :=
  if k < 0 then '0' :: '.' :: (List.replicate (-k - 1).toNat '0' ++ digits)
  else
    let place := k.toNat + 1
    let whole := digits.take place ++ List.replicate (place - digits.length) '0'
    match digits.drop place with
    | [] => if s.point then whole ++ ['.', '0'] else whole
    | fraction => whole ++ '.' :: fraction

def exponentOf (s : Spelling) (k : Int) : List Char :=
  let digits := digitsOf k.natAbs
  let padded := if s.twoDigitExponent && digits.length < 2 then '0' :: digits else digits
  'e' :: (if k < 0 then ['-'] else if s.plus then ['+'] else []) ++ padded

def scientific (s : Spelling) (digits : List Char) (k : Int) : List Char :=
  match digits with
  | [] => s.exponentOf k
  | [d] => d :: s.exponentOf k
  | d :: ds => d :: '.' :: ds ++ s.exponentOf k

/-- Trailing zeros carry no information beside the exponent. -/
def significant (digits : List Char) : List Char :=
  (digits.reverse.dropWhile (· = '0')).reverse

def magnitude (s : Spelling) (x : Float) : List Char :=
  if x == 0 then s.positional ['0'] 0
  else
    let d := (Binary.ofFloat x).shortest s.tie
    let digits := digitsOf d.digits
    let k := d.exponent + digits.length - 1
    let kept := significant digits
    if s.least ≤ k ∧ k < s.bound then s.positional kept k else s.scientific kept k

def isNegative (x : Float) : Bool := x.toBits.toNat ≥ Nat.pow 2 63

def write (s : Spelling) (x : Float) : List Char :=
  if x.isNaN then s.nan.toList
  else if x.isInf then (if isNegative x then s.negativeInfinity else s.infinity).toList
  else if isNegative x then '-' :: s.magnitude x
  else s.magnitude x

end Spelling
end ScreenPlan
