import ScreenPlan.Decimal.Spelling
import ScreenPlan.Json.Base64
import ScreenPlan.Json.Quoted
import ScreenPlan.Json.Value

/-!
# Printing JSON

One printer for all layouts, and the limits of the three encoders that use it. The fast encoder
takes 64-bit integers only, the portable one takes integers of thousands of digits and even bytes,
and the plain one also offers indentation and writes numbers that are not finite by name.
-/

namespace ScreenPlan

namespace Json

/-- Where blanks go between the parts of a container. -/
inductive Layout where
  | compact
  | spaced
  | lines (unit : String)
  deriving DecidableEq, Repr

namespace Layout

/-- The line break before a line at the given level. -/
def lead : Layout → Nat → List Char
  | .lines unit, level => '\n' :: (List.replicate level unit.toList).flatten
  | _, _ => []

def comma : Layout → Nat → List Char
  | .compact, _ => [',']
  | .spaced, _ => [',', ' ']
  | l, level => ',' :: l.lead level

def colon : Layout → List Char
  | .compact => [':']
  | _ => [':', ' ']

/-- The least and the greatest number of columns that lines can be indented by. Fewer than none
are none. -/
def columnBounds : Int × Int := (-Int.pow 2 63, Int.pow 2 63 - 1)

def hasColumns (n : Int) : Bool := columnBounds.1 ≤ n && n ≤ columnBounds.2

/-- Indentation by a number of columns, if there can be so many; none and zero mean no line breaks
at all. -/
def ofColumns? : Option Int → Option Layout
  | none => some .spaced
  | some n =>
    if n = 0 then some .compact
    else if hasColumns n then some (.lines (String.ofList (List.replicate n.toNat ' ')))
    else none

end Layout

def printInt (n : Int) : List Char :=
  if n < 0 then '-' :: Nat.toDigits 10 n.natAbs else Nat.toDigits 10 n.natAbs

def digitCount (n : Int) : Nat := (Nat.toDigits 10 n.natAbs).length

/-- The parts of a container that holds something, at the level of the container. -/
def enclose (l : Layout) (level : Nat) (opening closing : Char) (parts : List (List Char)) : List Char :=
  opening :: l.lead (level + 1) ++ List.intercalate (l.comma (level + 1)) parts ++ l.lead level ++ [closing]

mutual
def print (s : Spelling) (l : Layout) (level : Nat) : Value → List Char
  | .null => ['n', 'u', 'l', 'l']
  | .bool true => ['t', 'r', 'u', 'e']
  | .bool false => ['f', 'a', 'l', 's', 'e']
  | .int n => printInt n
  | .float x => s.write x
  | .str t => quote t
  | .list [] => ['[', ']']
  | .list (x :: xs) =>
    enclose l level '[' ']' (print s l (level + 1) x :: printItems s l (level + 1) xs)
  | .object [] => ['{', '}']
  | .object ((k, v) :: fs) =>
    enclose l level '{' '}'
      ((quote k ++ l.colon ++ print s l (level + 1) v) :: printMembers s l (level + 1) fs)
  | .foreign (.bytes t) => '"' :: Base64.encode t.toUTF8.toList ++ ['"']
  | .foreign (.complex _ _) => []

def printItems (s : Spelling) (l : Layout) (level : Nat) : List Value → List (List Char)
  | [] => []
  | x :: xs => print s l level x :: printItems s l level xs

def printMembers (s : Spelling) (l : Layout) (level : Nat) : List (String × Value) → List (List Char)
  | [] => []
  | (k, v) :: fs => (quote k ++ l.colon ++ print s l level v) :: printMembers s l level fs
end

/-- Why there is no text of a value. -/
inductive Obstacle where
  | integerOutOfRange
  | tooDeep
  | noForm (typeName : String)
  | columnsOutOfRange
  deriving DecidableEq, Repr

/-- The integers that have a form: those in a range, or those with no more than so many digits. -/
inductive Integers where
  | between (least greatest : Int)
  | upTo (digits : Nat)
  deriving DecidableEq, Repr

def Integers.contain : Integers → Int → Bool
  | .between least greatest, n => least ≤ n && n ≤ greatest
  | .upTo digits, n => digitCount n ≤ digits

structure Encoder where
  spelling : Spelling
  integers : Integers
  bytes : Bool
  /-- How deep containers may nest, empty ones included. -/
  room : Nat

namespace Encoder

mutual
/-- The first obstacle in reading order. -/
def obstacle? (e : Encoder) (room : Nat) : Value → Option Obstacle
  | .int n => if e.integers.contain n then none else some .integerOutOfRange
  | .list xs =>
    match room with
    | 0 => some .tooDeep
    | room + 1 => e.obstacleItems? room xs
  | .object fs =>
    match room with
    | 0 => some .tooDeep
    | room + 1 => e.obstacleMembers? room fs
  | .foreign (.bytes _) => if e.bytes then none else some (.noForm "bytes")
  | .foreign (.complex _ _) => some (.noForm "complex")
  | _ => none

def obstacleItems? (e : Encoder) (room : Nat) : List Value → Option Obstacle
  | [] => none
  | x :: xs => (e.obstacle? room x).or (e.obstacleItems? room xs)

def obstacleMembers? (e : Encoder) (room : Nat) : List (String × Value) → Option Obstacle
  | [] => none
  | (_, v) :: fs => (e.obstacle? room v).or (e.obstacleMembers? room fs)
end

def encode (e : Encoder) (l : Layout) (v : Value) : Except Obstacle String :=
  match e.obstacle? e.room v with
  | some o => .error o
  | none => .ok (String.ofList (print e.spelling l 0 v))

end Encoder

/-- Unpadded exponents with their sign. -/
def fast : Encoder :=
  { spelling :=
      { least := -5, plus := true, twoDigitExponent := false
        nan := "null", infinity := "null", negativeInfinity := "null" }
    integers := .between (-Int.pow 2 63) (Int.pow 2 64 - 1)
    bytes := false
    room := 254 }

/-- No longer integer is turned into digits. -/
def maxDigits : Nat := 4300

/-- The calls that may be going on at a time. The portable and the plain encoder need one for each
container inside another, and those of their caller count as well: how much of this room is left to
a value is up to the caller. -/
def stackRoom : Nat := 1000

/-- Unpadded exponents without a plus sign. -/
def portable : Encoder :=
  { spelling :=
      { least := -5, plus := false, twoDigitExponent := false
        nan := "null", infinity := "null", negativeInfinity := "null" }
    integers := .upTo maxDigits
    bytes := true
    room := stackRoom }

/-- Exponents with a sign and two digits. -/
def plain : Encoder :=
  { spelling :=
      { least := -4, plus := true, twoDigitExponent := true
        nan := "NaN", infinity := "Infinity", negativeInfinity := "-Infinity" }
    integers := .upTo maxDigits
    bytes := false
    room := stackRoom }

end Json

namespace Value
open Json

/-- Without blanks, by the first encoder that takes the value. Nesting beyond the portable encoder
is final. -/
def compact (v : Value) : Except Obstacle String :=
  match fast.encode .compact v with
  | .ok text => .ok text
  | .error _ =>
    match portable.encode .compact v with
    | .ok text => .ok text
    | .error .tooDeep => .error .tooDeep
    | .error _ => plain.encode .compact v

def written (v : Value) (l : Layout) : Except Obstacle String :=
  if l = .compact then v.compact else plain.encode l v

/-- Indented by a number of columns. A text is written without regard to the layout, so a number
that makes none does not show. -/
def writtenIn (v : Value) (columns : Option Int) : Except Obstacle String :=
  match Layout.ofColumns? columns, v with
  | some l, v => v.written l
  | none, .str t => .ok (String.ofList (quote t))
  | none, _ => .error .columnsOutOfRange

mutual
/-- The same value with the keys of every object in code point order. -/
def sorted : Value → Value
  | .list xs => .list (sortedItems xs)
  | .object fs => .object ((sortedMembers fs).mergeSort fun a b => decide (a.1 ≤ b.1))
  | v => v

def sortedItems : List Value → List Value
  | [] => []
  | x :: xs => sorted x :: sortedItems xs

def sortedMembers : List (String × Value) → List (String × Value)
  | [] => []
  | (k, v) :: fs => (k, sorted v) :: sortedMembers fs
end

/-- A text that does not depend on the order of keys. -/
def canonical (v : Value) : Except Obstacle String :=
  match fast.encode .compact v.sorted with
  | .ok text => .ok text
  | .error _ => plain.encode .compact v.sorted

end Value
end ScreenPlan
