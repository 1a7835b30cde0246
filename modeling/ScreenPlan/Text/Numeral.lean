import ScreenPlan.Text.Blank

/-!
# Numerals

Integers as they are written by hand: with spaces around them, a sign, leading zeros, underscores
between digits and zeros after a point. Whatever else a numeral has, an integer has at most
`maxLength` digits.
-/

namespace ScreenPlan.Text.Numeral

/-- The most digits that an integer may have; its sign and its leading zeros do not count. -/
def maxLength : Nat := 4300

inductive Defect where
  /-- The text begins with an integer in plain digits that is too long. -/
  | tooLong
  | noInteger
  deriving DecidableEq, Repr

/-- Digits, with single underscores between them. -/
def digits? : List Char → Option (List Char)
  | [] => none
  | [c] => if c.isDigit then some [c] else none
  | c :: '_' :: s => if c.isDigit then (digits? s).map (c :: ·) else none
  | c :: s => if c.isDigit then (digits? s).map (c :: ·) else none

/-- What is left behind `last`, a leading zero or an underscore after one. The last of them stays if
nothing or a point follows; the next digit may have a minus sign of its own. -/
def withoutZeros? (last : Char) : List Char → Option (List Char)
  | [] => some [last]
  | c :: s =>
    if c = '0' ∨ c = '_' then withoutZeros? c s
    else if c.isDigit ∨ c = '-' then some (c :: s)
    else if c = '.' then some (last :: c :: s)
    else none

/-- A numeral begins with a digit. -/
def significant? : List Char → Option (List Char)
  | [] => none
  | '0' :: s => withoutZeros? '0' s
  | c :: s => if c.isDigit then some (c :: s) else none

/-- Zeros after a point do not count, but there has to be one. -/
def withoutFraction (s : List Char) : List Char :=
  let whole := s.takeWhile (· ≠ '.')
  let fraction := s.drop (whole.length + 1)
  if !fraction.isEmpty && fraction.all (· = '0') then whole else s

/-- A number whose first digit is zero only if it has no other. -/
def magnitude? (negative : Bool) (s : List Char) : Option Int :=
  match digits? (withoutFraction s) with
  | none => none
  | some ds =>
    let n : Int := Nat.ofDigitChars 10 ds 0
    if ds.head? = some '0' ∧ 1 < ds.length then none
    else if maxLength < ds.length then none
    else some (if negative then -n else n)

/-- A numeral that begins with a digit; behind leading zeros a minus sign may stand. -/
def unsigned? (s : List Char) : Option Int :=
  match significant? s with
  | some ('-' :: s) => magnitude? true s
  | some s => magnitude? false s
  | none => none

/-- The number that a numeral without spaces around it stands for. A plus sign changes nothing. -/
def value? : List Char → Option Int
  | '-' :: s => (significant? s).bind (magnitude? true)
  | '+' :: s => unsigned? s
  | s => unsigned? s

/-- The digits that a text begins with; a leading zero has none after it. -/
def plainDigits (s : List Char) : List Char :=
  if s.head? = some '0' then ['0'] else s.takeWhile Char.isDigit

/-- The number of digits of the integer that a text begins with, its sign aside. -/
def plainLength : List Char → Nat
  | '-' :: s => (plainDigits s).length
  | s => (plainDigits s).length

def read (s : List Char) : Except Defect Int :=
  if maxLength < plainLength s then .error .tooLong
  else
    match value? (trimWhere isSpace s) with
    | some n => .ok n
    | none => .error .noInteger

end ScreenPlan.Text.Numeral
