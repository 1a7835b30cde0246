import ScreenPlan.Decimal.Nearest
import ScreenPlan.Json.Quoted
import ScreenPlan.Json.Value

/-!
# Reading JSON

A strict reader of one JSON document. Integers are exact, other numbers are rounded to the nearest
double, a repeated key keeps its first position and its last value. The first flaw in text order
is reported with its byte position.
-/

namespace ScreenPlan.Json

def skipBlank : List Char → List Char
  | [] => []
  | c :: s => if c = ' ' ∨ c = '\t' ∨ c = '\n' ∨ c = '\r' then skipBlank s else c :: s

/-- An integer, its sign included, may be written with at most this many characters. -/
def maxIntegerLength : Nat := 4300

/-- Containers may nest this deep. -/
def maxNesting : Nat := 1000

/-- The double nearest to `digits * 10 ^ exponent`, unless that is infinite. The comparisons of the
leading digit's place only keep powers of ten small. -/
def nearestFloat? (digits : List Char) (exponent : Int) : Option Float :=
  let significant := digits.dropWhile (· = '0')
  let place := exponent + significant.length
  if significant.isEmpty ∨ place < -400 then some 0.0
  else if 400 < place then none
  else
    let x := nearestDouble (Nat.ofDigitChars 10 significant 0 * Nat.pow 10 exponent.toNat)
      (Nat.pow 10 (-exponent).toNat)
    if x.isInf then none else some x

def invalidNumber (s : List Char) : Fault := .malformed .invalidNumber (byteCount s)

/-- The digits after a decimal point, if there is one. -/
def fraction : List Char → Except Fault (Option (List Char) × List Char)
  | '.' :: s =>
    match s.takeWhile Char.isDigit with
    | [] => .error (invalidNumber s)
    | ds => .ok (some ds, s.dropWhile Char.isDigit)
  | s => .ok (none, s)

def signed : List Char → Bool × List Char
  | '-' :: s => (true, s)
  | '+' :: s => (false, s)
  | s => (false, s)

/-- The digits of an exponent count up to the fifth significant one; the rest are dropped. -/
def exponentValue (digits : List Char) : Nat :=
  Nat.ofDigitChars 10 ((digits.dropWhile (· = '0')).take 5) 0

/-- The exponent after an `e`, if there is one. -/
def exponent : List Char → Except Fault (Option Int × List Char)
  | c :: s =>
    if c = 'e' ∨ c = 'E' then
      let (negative, s) := signed s
      match s.takeWhile Char.isDigit with
      | [] => .error (invalidNumber s)
      | ds =>
        let n : Int := exponentValue ds
        .ok (some (if negative then -n else n), s.dropWhile Char.isDigit)
    else .ok (none, c :: s)
  | [] => .ok (none, [])

/-- A number without its sign; `s` starts with a digit. -/
def magnitude (negative : Bool) (s : List Char) : Except Fault (Value × List Char) :=
  let whole := s.takeWhile Char.isDigit
  if whole.head? = some '0' ∧ 1 < whole.length then
    .error (.malformed .invalidNumber (byteCount s - 1))
  else
    match fraction (s.dropWhile Char.isDigit) with
    | .error e => .error e
    | .ok (part, s) =>
      match exponent s with
      | .error e => .error e
      | .ok (none, s) =>
        match part with
        | none =>
          if maxIntegerLength < whole.length + (if negative then 1 else 0) then .error (.integerOutOfRange [])
          else
            let n : Int := Nat.ofDigitChars 10 whole 0
            .ok (.int (if negative then -n else n), s)
        | some part => float whole part 0 s
      | .ok (some e, s) => float whole (part.getD []) e s
where
  float (whole part : List Char) (e : Int) (s : List Char) : Except Fault (Value × List Char) :=
    match nearestFloat? (whole ++ part) (e - part.length) with
    | none => .error (.numberOutOfRange [])
    | some x => .ok (.float (if negative then -x else x), s)

def number (negative : Bool) (s : List Char) : Except Fault (Value × List Char) :=
  match s with
  | [] => .error (.malformed .invalidNumber 0)
  | c :: _ =>
    if c.isDigit then magnitude negative s else .error (.malformed .invalidCharacter (byteCount s))

/-- One of the words `true`, `false` and `null`, after its first letter. -/
def word (tail : List Char) (v : Value) (s : List Char) : Except Fault (Value × List Char) :=
  if byteCount s < tail.length then .error .truncated
  else if tail.isPrefixOf s then .ok (v, s.drop tail.length)
  else .error (.malformed .invalidCharacter (byteCount s - tail.length))

mutual
/-- Reads a value. `fuel` bounds the number of steps and is never used up by a text shorter than
half of it; `room` is how much deeper containers may nest. -/
def value : Nat → Nat → List Char → Except Fault (Value × List Char)
  | 0, _, _ => .error .truncated
  | fuel + 1, room, s =>
    match skipBlank s with
    | [] => .error .truncated
    | '"' :: s => (unquote [] s).map fun (t, s) => (.str t, s)
    | '[' :: s =>
      match room with
      | 0 => .error .tooDeep
      | room + 1 =>
        match skipBlank s with
        | ']' :: s => .ok (.list [], s)
        | s => items fuel room [] s
    | '{' :: s =>
      match room with
      | 0 => .error .tooDeep
      | room + 1 =>
        match skipBlank s with
        | '}' :: s => .ok (.object [], s)
        | s => members fuel room [] s
    | 't' :: s => word ['r', 'u', 'e'] (.bool true) s
    | 'f' :: s => word ['a', 'l', 's', 'e'] (.bool false) s
    | 'n' :: s => word ['u', 'l', 'l'] .null s
    | '-' :: s => number true s
    | c :: s =>
      if c.isDigit then number false (c :: s)
      else .error (.malformed .invalidCharacter (byteCount (c :: s)))

/-- Reads the items of an array after those in `done`, which has the last one first. -/
def items : Nat → Nat → List Value → List Char → Except Fault (Value × List Char)
  | 0, _, _, _ => .error .truncated
  | fuel + 1, room, done, s =>
    match value fuel room s with
    | .error e => .error (e.within (.index done.length))
    | .ok (v, s) =>
      match skipBlank s with
      | [] => .error .truncated
      | ']' :: s => .ok (.list (v :: done).reverse, s)
      | ',' :: s =>
        match skipBlank s with
        | ']' :: s => .error (.malformed .trailingCommaInArray (byteCount s + 1))
        | s => items fuel room (v :: done) s
      | s => .error (.malformed .expectedCommaOrBracket (byteCount s))

/-- Reads the members of an object after those in `done`. -/
def members : Nat → Nat → Table Value → List Char → Except Fault (Value × List Char)
  | 0, _, _, _ => .error .truncated
  | fuel + 1, room, done, s =>
    match s with
    | [] => .error .truncated
    | '"' :: s =>
      match unquote [] s with
      | .error e => .error e
      | .ok (key, s) =>
        match skipBlank s with
        | [] => .error .truncated
        | ':' :: s =>
          match value fuel room s with
          | .error e => .error (e.within .member)
          | .ok (v, s) =>
            match skipBlank s with
            | [] => .error .truncated
            | '}' :: s => .ok (.object (done.put key v), s)
            | ',' :: s =>
              match skipBlank s with
              | '}' :: s => .error (.malformed .trailingCommaInObject (byteCount s + 1))
              | s => members fuel room (done.put key v) s
            | s => .error (.malformed .expectedCommaOrBrace (byteCount s))
        | s => .error (.malformed .expectedColon (byteCount s))
    | s => .error (.malformed .keyNotString (byteCount s))
end

/-- Reads a whole document. -/
def document (s : List Char) : Except Fault Value :=
  match value (2 * s.length + 2) maxNesting s with
  | .error e => .error e
  | .ok (v, s) =>
    match skipBlank s with
    | [] => .ok v
    | s => .error (.malformed .trailingCharacters (byteCount s - 1))

/-- Why a text is not a JSON document; `byte` counts from the start of the text. -/
inductive DecodeError where
  | truncated
  | malformed (flaw : Flaw) (byte : Nat)
  | numberOutOfRange (path : List Step)
  | integerOutOfRange (path : List Step)
  | tooDeep
  deriving DecidableEq, Repr

def Fault.locate (size : Nat) : Fault → DecodeError
  | .truncated => .truncated
  | .malformed flaw left => .malformed flaw (size - left)
  | .numberOutOfRange path => .numberOutOfRange path
  | .integerOutOfRange path => .integerOutOfRange path
  | .tooDeep => .tooDeep

def decode (text : String) : Except DecodeError Value :=
  (document text.toList).mapError (Fault.locate text.utf8ByteSize)

def Flaw.message : Flaw → String
  | .invalidCharacter => "invalid character"
  | .invalidEscape => "invalid escape character in string"
  | .invalidHex => "invalid character in unicode escape"
  | .invalidSurrogatePair => "invalid utf-16 surrogate pair"
  | .unfinishedSurrogatePair => "unexpected end of escaped utf-16 surrogate pair"
  | .trailingCommaInArray => "trailing comma in array"
  | .trailingCommaInObject => "trailing comma in object"
  | .expectedCommaOrBracket => "expected ',' or ']'"
  | .expectedCommaOrBrace => "expected ',' or '\x7d'"
  | .expectedColon => "expected ':'"
  | .keyNotString => "object keys must be strings"
  | .invalidNumber => "invalid number"
  | .trailingCharacters => "trailing characters"

def Step.text : Step → String
  | .index i => "[" ++ toString i ++ "]"
  | .member => "[...]"

def pathSuffix : List Step → String
  | [] => ""
  | path => " - at `$" ++ String.join (path.map Step.text) ++ "`"

/-- The reason without the words that introduce it. -/
def DecodeError.reason : DecodeError → String
  | .truncated => "Input data was truncated"
  | .malformed flaw byte => "JSON is malformed: " ++ flaw.message ++ " (byte " ++ toString byte ++ ")"
  | .numberOutOfRange path => "Number out of range" ++ pathSuffix path
  | .integerOutOfRange path => "Integer value out of range" ++ pathSuffix path
  | .tooDeep => "maximum recursion depth exceeded while deserializing an object"

def DecodeError.message (e : DecodeError) : String := "Invalid JSON: " ++ e.reason

end ScreenPlan.Json
