/-!
# Quoted strings

The written form of a JSON string and the scanner that reads it. Only the quote, the backslash and
control characters are escaped; a short escape is used where one exists.
-/

namespace ScreenPlan.Json

def escapeChar (c : Char) : List Char :=
  match c with
  | '"' => ['\\', '"']
  | '\\' => ['\\', '\\']
  | '\x08' => ['\\', 'b']
  | '\x0c' => ['\\', 'f']
  | '\n' => ['\\', 'n']
  | '\r' => ['\\', 'r']
  | '\t' => ['\\', 't']
  | c =>
    if c.toNat < 0x20 then
      ['\\', 'u', '0', '0', Nat.digitChar (c.toNat / 16), Nat.digitChar (c.toNat % 16)]
    else [c]

def quote (s : String) : List Char := '"' :: s.toList.flatMap escapeChar ++ ['"']

/-- What is wrong at the place where reading stopped. -/
inductive Flaw where
  | invalidCharacter
  | invalidEscape
  | invalidHex
  | invalidSurrogatePair
  | unfinishedSurrogatePair
  | trailingCommaInArray
  | trailingCommaInObject
  | expectedCommaOrBracket
  | expectedCommaOrBrace
  | expectedColon
  | keyNotString
  | invalidNumber
  | trailingCharacters
  deriving DecidableEq, Repr

/-- A step from a container to one of its parts. -/
inductive Step where
  | index (i : Nat)
  | member
  deriving DecidableEq, Repr

/-- A reader's refusal. The place of a flaw is given by the number of bytes after it. -/
inductive Fault where
  | truncated
  | malformed (flaw : Flaw) (left : Nat)
  | numberOutOfRange (path : List Step)
  | integerOutOfRange (path : List Step)
  | tooDeep
  deriving DecidableEq, Repr

def Fault.within (step : Step) : Fault → Fault
  | .numberOutOfRange path => .numberOutOfRange (step :: path)
  | .integerOutOfRange path => .integerOutOfRange (step :: path)
  | f => f

def byteCount (s : List Char) : Nat := s.foldr (fun c n => c.utf8Size + n) 0

def hexValue? (c : Char) : Option Nat :=
  let n := c.toNat
  if 48 ≤ n ∧ n ≤ 57 then some (n - 48)
  else if 97 ≤ n ∧ n ≤ 102 then some (n - 87)
  else if 65 ≤ n ∧ n ≤ 70 then some (n - 55)
  else none

/-- Reads up to `count` hexadecimal digits. -/
def hexUnit (acc : Nat) : Nat → List Char → Except Fault Nat
  | 0, _ => .ok acc
  | _ + 1, [] => .error .truncated
  | count + 1, c :: s =>
    match hexValue? c with
    | some d => hexUnit (acc * 16 + d) count s
    | none => .error (.malformed .invalidHex (byteCount (c :: s) - 1))

/-- The code unit after `\u`. -/
def codeUnit (s : List Char) : Except Fault Nat :=
  if byteCount s < 4 then .error .truncated else hexUnit 0 4 s

def isHighSurrogate (u : Nat) : Bool := 0xd800 ≤ u && u < 0xdc00

def isLowSurrogate (u : Nat) : Bool := 0xdc00 ≤ u && u < 0xe000

/-- The second half of a surrogate pair, at the text after the first one. -/
def lowSurrogate (high : Nat) (s : List Char) : Except Fault Char :=
  if byteCount s < 6 then .error .truncated
  else match s with
    | '\\' :: 'u' :: r =>
      match codeUnit r with
      | .error e => .error e
      | .ok low =>
        if isLowSurrogate low then .ok (Char.ofNat (0x10000 + (high - 0xd800) * 0x400 + (low - 0xdc00)))
        else .error (.malformed .invalidSurrogatePair (byteCount r - 4))
    | _ => .error (.malformed .unfinishedSurrogatePair (byteCount s))

def shortEscape? : Char → Option Char
  | '"' => some '"'
  | '\\' => some '\\'
  | '/' => some '/'
  | 'b' => some '\x08'
  | 'f' => some '\x0c'
  | 'n' => some '\n'
  | 'r' => some '\r'
  | 't' => some '\t'
  | _ => none

/-- Reads on after an opening quote; `done` holds the characters read so far, last one first. -/
def unquote (done : List Char) : List Char → Except Fault (String × List Char)
  | [] => .error .truncated
  | '"' :: s => .ok (String.ofList done.reverse, s)
  | ['\\'] => .error .truncated
  | '\\' :: 'u' :: s =>
    match codeUnit s with
    | .error e => .error e
    | .ok u =>
      match s with
      | _ :: _ :: _ :: _ :: s =>
        if isLowSurrogate u then .error (.malformed .invalidSurrogatePair (byteCount s))
        else if isHighSurrogate u then
          match lowSurrogate u s with
          | .error e => .error e
          | .ok c =>
            match s with
            | _ :: _ :: _ :: _ :: _ :: _ :: s => unquote (c :: done) s
            | _ => .error .truncated
        else unquote (Char.ofNat u :: done) s
      | _ => .error .truncated
  | '\\' :: c :: s =>
    match shortEscape? c with
    | some c => unquote (c :: done) s
    | none => .error (.malformed .invalidEscape (byteCount (c :: s) - 1))
  | c :: s =>
    if c.toNat < 0x20 then .error (.malformed .invalidCharacter (byteCount (c :: s)))
    else unquote (c :: done) s

end ScreenPlan.Json
