import ScreenPlan.Decimal.Complex
import ScreenPlan.Json.Printer
import ScreenPlan.Text.Unprintable

/-!
# Displayed values

The text by which a value is shown where any value may stand, such as in a label. Text stands for
itself; inside containers it is put into single quotes, or into double ones if that saves escapes.
Bytes are always quoted and shown byte by byte. What nests too deep is not displayed at all.
-/

namespace ScreenPlan.Text

def hexDigits (n : Nat) : Nat → List Char
  | 0 => []
  | width + 1 => hexDigits (n / 16) width ++ [Nat.digitChar (n % 16)]

/-- The escape that a character needs between the given quotes, whatever it looks like. -/
def escape? (quote c : Char) : Option (List Char) :=
  if c = quote || c = '\\' then some ['\\', c]
  else if c = '\n' then some ['\\', 'n']
  else if c = '\r' then some ['\\', 'r']
  else if c = '\t' then some ['\\', 't']
  else none

def hexEscape (n : Nat) : List Char :=
  if n < 0x100 then '\\' :: 'x' :: hexDigits n 2
  else if n < 0x10000 then '\\' :: 'u' :: hexDigits n 4
  else '\\' :: 'U' :: hexDigits n 8

def displayedChar (quote c : Char) : List Char :=
  (escape? quote c).getD (if isUnprintable c then hexEscape c.toNat else [c])

/-- A byte of printable ASCII is shown as the character it stands for. -/
def displayedByte (quote : Char) (b : UInt8) : List Char :=
  let c := Char.ofNat b.toNat
  (escape? quote c).getD (if b.toNat < 0x20 || 0x7f ≤ b.toNat then hexEscape b.toNat else [c])

def quoteFor (s : String) : Char :=
  if s.toList.contains '\'' && !s.toList.contains '"' then '"' else '\''

def inSingleQuotes (s : String) : String :=
  String.ofList (quoteFor s :: s.toList.flatMap (displayedChar (quoteFor s)) ++ [quoteFor s])

def displayedBytes (s : String) : String :=
  String.ofList ('b' :: quoteFor s :: s.toUTF8.toList.flatMap (displayedByte (quoteFor s)) ++
    [quoteFor s])

def numberSpelling : Spelling :=
  { least := -4, plus := true, twoDigitExponent := true
    nan := "nan", infinity := "inf", negativeInfinity := "-inf" }

mutual
def inContainer : Value → String
  | .null => "None"
  | .bool true => "True"
  | .bool false => "False"
  | .int n => String.ofList (Json.printInt n)
  | .float x => String.ofList (numberSpelling.write x)
  | .str s => inSingleQuotes s
  | .list xs => "[" ++ String.intercalate ", " (displayedItems xs) ++ "]"
  | .object fs => "\x7b" ++ String.intercalate ", " (displayedMembers fs) ++ "\x7d"
  | .foreign (.bytes s) => displayedBytes s
  | .foreign (.complex re im) => String.ofList (Complex.displayed re im)

def displayedItems : List Value → List String
  | [] => []
  | x :: xs => inContainer x :: displayedItems xs

def displayedMembers : List (String × Value) → List String
  | [] => []
  | (k, v) :: fs => (inSingleQuotes k ++ ": " ++ inContainer v) :: displayedMembers fs
end

def displayed (v : Value) : String :=
  match v with
  | .str s => s
  | v => inContainer v

/-- How deep containers may nest in a value that is displayed. -/
def maxNesting : Nat := 1000

def tooDeep (v : Value) : Bool := decide (maxNesting < v.height)

/-- The text of a value that does not nest too deep. -/
def displayed? (v : Value) : Option String := if tooDeep v then none else some (displayed v)

end ScreenPlan.Text
