import ScreenPlan.Decimal.Spelling

/-!
# Complex numbers as text

A complex number is written as its parts with a sign between them and the unit `j` at the end. Its
parts have no point when they are whole.
-/

namespace ScreenPlan.Complex

/-- A number together with its sign, even a plus. What is no number has no sign of its own. -/
def signed (s : Spelling) (x : Float) : List Char :=
  if x.isNaN || !Spelling.isNegative x then '+' :: s.write x else s.write x

def sum (s : Spelling) (re im : Float) : List Char := s.write re ++ signed s im ++ ['j']

def imaginary (s : Spelling) (im : Float) : List Char := s.write im ++ ['j']

/-- Large and small parts have an exponent. -/
def short : Spelling :=
  { least := -4, point := false, plus := true, twoDigitExponent := true
    nan := "nan", infinity := "inf", negativeInfinity := "-inf" }

/-- No double is so large or so small that a part has an exponent. -/
def long : Spelling :=
  { short with least := -400, bound := 400, tie := .up, nan := "NaN" }

/-- In parentheses, unless the real part is zero without a minus sign. -/
def displayed (re im : Float) : List Char :=
  if re == 0 && !Spelling.isNegative re then imaginary short im
  else '(' :: sum short re im ++ [')']

/-- The text that stands for the number in JSON data; a real part of zero is left out. -/
def settled (re im : Float) : List Char :=
  if re == 0 then imaginary long im else sum long re im

end ScreenPlan.Complex
