import ScreenPlan.Decimal.Places
import ScreenPlan.Decimal.Quantity
import ScreenPlan.Text.Displayed

/-!
# Templates

Texts with places to fill in. A place begins with a percent sign and ends with a letter, its
conversion, which says how a value is written; between them may stand a name in parentheses, flags,
a width and a precision. Two percent signs stand for one. A template is filled from one argument:
places with a name take a member of it, the first place without a name takes the argument itself.
-/

namespace ScreenPlan.Text.Template

/-- A width or a precision. -/
inductive Measure where
  | absent
  | given (n : Nat)
  /-- The next value says how much. -/
  | taken
  deriving DecidableEq, Repr

inductive Name where
  | absent
  | given (name : String)
  /-- The parenthesis is not closed. -/
  | unfinished
  deriving DecidableEq, Repr

structure Place where
  name : Name
  flags : List Char
  width : Measure
  precision : Measure
  /-- None where the template ends within the place. -/
  conversion : Option Char
  /-- Where in the template the conversion stands. -/
  index : Nat
  deriving DecidableEq, Repr

inductive Piece where
  | text (c : Char)
  | place (p : Place)
  deriving DecidableEq, Repr

/-! ## Reading -/

/-- What is before and behind the parenthesis that closes `depth + 1` open ones. -/
def untilClosed : Nat → List Char → Option (List Char × List Char)
  | _, [] => none
  | 0, ')' :: s => some ([], s)
  | depth + 1, ')' :: s => (untilClosed depth s).map fun (name, rest) => (')' :: name, rest)
  | depth, '(' :: s => (untilClosed (depth + 1) s).map fun (name, rest) => ('(' :: name, rest)
  | depth, c :: s => (untilClosed depth s).map fun (name, rest) => (c :: name, rest)

def Name.read : List Char → Name × List Char
  | '(' :: s =>
    match untilClosed 0 s with
    | some (name, rest) => (.given (String.ofList name), rest)
    | none => (.unfinished, [])
  | s => (.absent, s)

def isFlag (c : Char) : Bool := c ∈ ['-', '+', ' ', '#', '0']

def Measure.read : List Char → Measure × List Char
  | '*' :: s => (.taken, s)
  | s =>
    let digits := s.takeWhile Char.isDigit
    (if digits.isEmpty then .absent else .given (Nat.ofDigitChars 10 digits 0), s.dropWhile Char.isDigit)

/-- A point alone stands for a precision of zero. -/
def readPrecision : List Char → Measure × List Char
  | '.' :: s =>
    match Measure.read s with
    | (.absent, rest) => (.given 0, rest)
    | found => found
  | s => (.absent, s)

/-- A letter for the size of a number has no meaning here. -/
def withoutSize : List Char → List Char
  | c :: s => if c ∈ ['h', 'l', 'L'] then s else c :: s
  | [] => []

/-- The place that begins behind a percent sign, and what follows it, in a template of `size`
characters. -/
def Place.read (size : Nat) (s : List Char) : Place × List Char :=
  let (name, s) := Name.read s
  let flags := s.takeWhile isFlag
  let (width, s) := Measure.read (s.dropWhile isFlag)
  let (precision, s) := readPrecision s
  match withoutSize s with
  | [] => (⟨name, flags, width, precision, none, size⟩, [])
  | c :: rest => (⟨name, flags, width, precision, some c, size - rest.length - 1⟩, rest)

theorem length_untilClosed {s name rest : List Char} {depth : Nat}
    (h : untilClosed depth s = some (name, rest)) : rest.length < s.length := by
  fun_induction untilClosed depth s generalizing name rest with
  | case1 => simp at h
  | case2 s => simp_all
  | case3 depth s ih | case4 depth s ih | case5 depth c s _ _ _ ih =>
    obtain ⟨⟨n, r⟩, found, same⟩ := Option.map_eq_some_iff.1 h
    have := ih found
    simp only [Prod.mk.injEq] at same
    simp only [List.length_cons, ← same.2]
    omega

theorem length_nameRead (s : List Char) : (Name.read s).2.length ≤ s.length := by
  unfold Name.read
  split
  · next s =>
    split
    · next found => have := length_untilClosed found; simp; omega
    · simp
  · simp

theorem length_dropWhile (p : Char → Bool) (s : List Char) : (s.dropWhile p).length ≤ s.length :=
  (List.dropWhile_suffix p).length_le

theorem length_measureRead (s : List Char) : (Measure.read s).2.length ≤ s.length := by
  unfold Measure.read
  split
  · simp
  · exact length_dropWhile ..

theorem length_readPrecision (s : List Char) : (readPrecision s).2.length ≤ s.length := by
  unfold readPrecision
  split
  · next s =>
    have := length_measureRead s
    split
    · next found => rw [found] at this; simp only [List.length_cons] at *; omega
    · simp only [List.length_cons]; omega
  · simp

theorem length_withoutSize (s : List Char) : (withoutSize s).length ≤ s.length := by
  unfold withoutSize
  split
  · split <;> simp
  · simp

/-- Reading a place leaves no more than there was. -/
theorem length_placeRead (size : Nat) (s : List Char) : (Place.read size s).2.length ≤ s.length := by
  have name := length_nameRead s
  have flags := length_dropWhile isFlag (Name.read s).2
  have width := length_measureRead ((Name.read s).2.dropWhile isFlag)
  have precision := length_readPrecision (Measure.read ((Name.read s).2.dropWhile isFlag)).2
  have sized := length_withoutSize
    (readPrecision (Measure.read ((Name.read s).2.dropWhile isFlag)).2).2
  unfold Place.read
  dsimp only
  split
  · simp
  · next found =>
    rw [found, List.length_cons] at sized
    dsimp only
    omega

def pieces (size : Nat) : List Char → List Piece
  | [] => []
  | '%' :: '%' :: s => .text '%' :: pieces size s
  | '%' :: s => .place (Place.read size s).1 :: pieces size (Place.read size s).2
  | c :: s => .text c :: pieces size s
termination_by s => s.length
decreasing_by
  · simp only [List.length_cons]
    omega
  · have := length_placeRead size s
    simp only [List.length_cons]
    omega
  · simp

/-! ## Filling -/

inductive Defect where
  /-- More places than values. -/
  | tooFew
  /-- No place for the value. -/
  | tooMany
  | noMembers
  | unfinishedName
  | unfinished
  | missing (name : String)
  /-- Members of a list have numbers, not names. -/
  | notByName (noun : String)
  | measureNotInteger
  | measureTooLarge (noun : String)
  /-- A value has no room in a machine integer of the named type. -/
  | measureOverflow (type : String)
  | unknownConversion (c : Char) (index : Nat)
  | notNumber (conversion : Char) (typeName : String)
  | notInteger (conversion : Char) (typeName : String)
  | notReal (typeName : String)
  | notCharacter
  | noSuchCharacter
  | notFinite (noun : String)
  | quantity (e : QuantityError)
  | tooDeep
  deriving DecidableEq, Repr

def lowerHex (n : Nat) : String := String.ofList (Nat.toDigits 16 n)

def Defect.message : Defect → String
  | .tooFew => "not enough arguments for format string"
  | .tooMany => "not all arguments converted during string formatting"
  | .noMembers => "format requires a mapping"
  | .unfinishedName => "incomplete format key"
  | .unfinished => "incomplete format"
  | .missing name => inSingleQuotes name
  | .notByName noun => noun ++ " indices must be integers or slices, not str"
  | .measureNotInteger => "* wants int"
  | .measureTooLarge noun => noun ++ " too big"
  | .measureOverflow type => "Python int too large to convert to C " ++ type
  | .unknownConversion c index =>
    "unsupported format character '" ++ (if c < ' ' || '~' < c then "?" else c.toString) ++
      "' (0x" ++ lowerHex c.toNat ++ ") at index " ++ toString index
  | .notNumber c typeName => "%" ++ c.toString ++ " format: a real number is required, not " ++ typeName
  | .notInteger c typeName => "%" ++ c.toString ++ " format: an integer is required, not " ++ typeName
  | .notReal typeName => "must be real number, not " ++ typeName
  | .notCharacter => "%c requires int or char"
  | .noSuchCharacter => "%c arg not in range(0x110000)"
  | .notFinite noun => "cannot convert float " ++ noun ++ " to integer"
  | .quantity e => e.message
  | .tooDeep => ""

/-- Has the argument members? A text has none. -/
def hasMembers : Value → Bool
  | .object _ | .list _ | .foreign (.bytes _) => true
  | _ => false

def member (argument : Value) (name : String) : Except Defect Value :=
  match argument with
  | .object fields =>
    match Table.get? fields name with
    | some v => .ok v
    | none => .error (.missing name)
  | .list _ => .error (.notByName "list")
  | .foreign (.bytes _) => .error (.notByName "byte")
  | _ => .error .noMembers

/-- The value at hand, if it has not been taken yet. -/
abbrev Hand := Option Value

def Hand.take (hand : Hand) : Except Defect Value :=
  match hand with
  | some v => .ok v
  | none => .error .tooFew

/-- A name puts a member of the argument into the hand. -/
def Name.resolve (name : Name) (argument : Value) (hand : Hand) : Except Defect Hand :=
  match name with
  | .absent => .ok hand
  | .given name => (member argument name).map some
  | .unfinished => .error (if hasMembers argument then .unfinishedName else .noMembers)

def integer? : Value → Option Int
  | .int n => some n
  | .bool b => some (if b then 1 else 0)
  | _ => none

/-- What a measure may be. -/
structure Measure.Kind where
  noun : String
  type : String
  bits : Nat

def Measure.Kind.width : Measure.Kind := ⟨"width", "ssize_t", 63⟩

def Measure.Kind.precision : Measure.Kind := ⟨"precision", "int", 31⟩

/-- How much a measure says, and the hand after it. -/
def Measure.resolve (m : Measure) (kind : Measure.Kind) (hand : Hand) :
    Except Defect (Option Int × Hand) :=
  match m with
  | .absent => .ok (none, hand)
  | .given n => if n < Nat.pow 2 kind.bits then .ok (some n, hand) else .error (.measureTooLarge kind.noun)
  | .taken =>
    match hand.take with
    | .error e => .error e
    | .ok v =>
      match integer? v with
      | some n =>
        if -Int.pow 2 kind.bits ≤ n ∧ n < Int.pow 2 kind.bits then .ok (some n, none)
        else .error (.measureOverflow kind.type)
      | none => .error .measureNotInteger

/-- How a value is to be written. -/
structure Form where
  flags : List Char
  width : Nat
  precision : Option Nat

def Form.has (f : Form) (flag : Char) : Bool := f.flags.contains flag

/-- Spaces to the left, or to the right if a minus sign asks for it. -/
def Form.pad (f : Form) (s : List Char) : List Char :=
  let blanks := List.replicate (f.width - s.length) ' '
  if f.has '-' then s ++ blanks else blanks ++ s

/-- A number as its sign, its base mark and the rest. Zeros are filled in behind the mark. -/
def Form.number (f : Form) (negative : Bool) (mark rest : List Char) : List Char :=
  let sign := if negative then ['-'] else if f.has '+' then ['+'] else if f.has ' ' then [' '] else []
  let room := f.width - (sign.length + mark.length + rest.length)
  if f.has '0' && !f.has '-' then sign ++ mark ++ List.replicate room '0' ++ rest
  else f.pad (sign ++ mark ++ rest)

def Form.integer (f : Form) (base : Nat) (mark : List Char) (capital : Bool) (n : Int) : List Char :=
  let digits := Nat.toDigits base n.natAbs
  let padded := List.replicate (f.precision.getD 0 - digits.length) '0' ++ digits
  f.number (n < 0) mark (if capital then padded.map Char.toUpper else padded)

/-- The layout of a double by the letter of its conversion. -/
def layoutOf (conversion : Char) (full : Bool) (precision : Nat) (b : Binary) : List Char :=
  let l : Places.Layout := ⟨full, numberSpelling⟩
  match conversion.toLower with
  | 'f' => Places.fixed l precision b
  | 'e' =>
    let (digits, k) := b.significant (precision + 1)
    Places.scientific l digits k
  | _ => Places.general l (max precision 1) b

def Form.real (f : Form) (conversion : Char) (x : Float) : List Char :=
  let text :=
    if x.isNaN then ['n', 'a', 'n']
    else if x.isInf then ['i', 'n', 'f']
    else layoutOf conversion (f.has '#') (f.precision.getD 6) (Binary.ofFloat x)
  f.number (!x.isNaN && Spelling.isNegative x) []
    (if conversion.isUpper then text.map Char.toUpper else text)

/-- Doubles lose what is behind the point. -/
def wholePart (conversion : Char) : Value → Except Defect Int
  | .float x =>
    if x.isNaN then .error (.notFinite "NaN")
    else if x.isInf then .error (.notFinite "infinity")
    else .ok (if x < 0 then -Binary.floor (-x) else Binary.floor x)
  | v =>
    match integer? v with
    | some n => .ok n
    | none => .error (.notNumber conversion v.typeName)

def wholeNumber (conversion : Char) (v : Value) : Except Defect Int :=
  match integer? v with
  | some n => .ok n
  | none => .error (.notInteger conversion v.typeName)

def realNumber (v : Value) : Except Defect Float :=
  match v with
  | .float x => .ok x
  | v =>
    match integer? v with
    | some n => (Quantity.whole n).toFloat.mapError .quantity
    | none => .error (.notReal v.typeName)

/-- A text of one character, or a number of one. -/
def character (v : Value) : Except Defect Char :=
  match v with
  | .str s =>
    match s.toList with
    | [c] => .ok c
    | _ => .error .notCharacter
  | v =>
    match integer? v with
    | some n => if 0 ≤ n ∧ n < 0x110000 then .ok (Char.ofNat n.toNat) else .error .noSuchCharacter
    | none => .error .notCharacter

/-- Only ASCII stands for itself. -/
def asciiOnly (s : List Char) : List Char :=
  s.flatMap fun c => if c.toNat < 0x80 then [c] else hexEscape c.toNat

/-- A text, cut to the precision. -/
def Form.text (f : Form) (s : String) (convert : List Char → List Char) : List Char :=
  let s := convert s.toList
  f.pad ((f.precision.map fun n => s.take n).getD s)

def Form.base (f : Form) (mark : List Char) : List Char := if f.has '#' then mark else []

def Form.write (f : Form) (conversion : Char) (index : Nat) (v : Value) : Except Defect (List Char) :=
  let shown (text : Value → String) (convert : List Char → List Char) : Except Defect (List Char) :=
    if tooDeep v then .error .tooDeep else .ok (f.text (text v) convert)
  match conversion with
  | 's' => shown displayed id
  | 'r' => shown inContainer id
  | 'a' => shown inContainer asciiOnly
  | 'd' | 'i' | 'u' => (wholePart conversion v).map (f.integer 10 [] false)
  | 'o' => (wholeNumber conversion v).map (f.integer 8 (f.base ['0', 'o']) false)
  | 'x' => (wholeNumber conversion v).map (f.integer 16 (f.base ['0', 'x']) false)
  | 'X' => (wholeNumber conversion v).map (f.integer 16 (f.base ['0', 'X']) true)
  | 'e' | 'f' | 'g' | 'E' | 'F' | 'G' => (realNumber v).map (f.real conversion)
  | 'c' => (character v).map fun c => f.pad [c]
  | c => .error (.unknownConversion c index)

/-- A negative width stands for a minus flag, a negative precision for zero. -/
def Place.form (p : Place) (width precision : Option Int) : Form :=
  { flags := if width.any (· < 0) then '-' :: p.flags else p.flags
    width := (width.getD 0).natAbs
    precision := precision.map Int.toNat }

/-- The text of a place and the hand after it. -/
def Place.fill (p : Place) (argument : Value) (hand : Hand) : Except Defect (List Char × Hand) := do
  let hand ← p.name.resolve argument hand
  let (width, hand) ← p.width.resolve .width hand
  let (precision, hand) ← p.precision.resolve .precision hand
  match p.conversion with
  | none => .error .unfinished
  | some c =>
    let text ← (p.form width precision).write c p.index (← hand.take)
    .ok (text, none)

/-- A value that is left over is no defect where it has members. -/
def fillPieces (argument : Value) : List Piece → Hand → Except Defect (List Char)
  | [], hand => if hand.isSome && !hasMembers argument then .error .tooMany else .ok []
  | .text c :: ps, hand => (fillPieces argument ps hand).map (c :: ·)
  | .place p :: ps, hand =>
    match p.fill argument hand with
    | .error e => .error e
    | .ok (text, hand) => (fillPieces argument ps hand).map (text ++ ·)

def fill (template : String) (argument : Value) : Except Defect String :=
  (fillPieces argument (pieces template.length template.toList) (some argument)).map String.ofList

end ScreenPlan.Text.Template
