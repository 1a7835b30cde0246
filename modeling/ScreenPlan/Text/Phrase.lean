/-!
# Phrases in any case

Finds phrases of ASCII letters in text whatever the case of the text. The case maps below hold
exactly the characters whose counterpart contains an ASCII letter and leave all others alone, so
no phrase is missed and none appears that full case mapping would not produce.
-/

namespace ScreenPlan.Text

/-- The Kelvin sign is a `k`, and a dotted capital `I` leaves its dot behind. -/
def lowerChar (c : Char) : List Char :=
  if c = '\u212a' then ['k'] else if c = '\u0130' then ['i', '\u0307'] else [c.toLower]

/-- A dotless `i` and a long `s` have plain capitals. The capitals of a sharp `s` and of ligatures are
written letter by letter, and those of letters with a mark that no capital has leave the mark beside them. -/
def foreignCapitals : List (Char × String) :=
  [('\u00df', "SS"), ('\u0131', "I"), ('\u0149', "\u02bcN"), ('\u017f', "S"), ('\u01f0', "J\u030c"),
    ('\u1e96', "H\u0331"), ('\u1e97', "T\u0308"), ('\u1e98', "W\u030a"), ('\u1e99', "Y\u030a"),
    ('\u1e9a', "A\u02be"), ('\ufb00', "FF"), ('\ufb01', "FI"), ('\ufb02', "FL"), ('\ufb03', "FFI"),
    ('\ufb04', "FFL"), ('\ufb05', "ST"), ('\ufb06', "ST")]

def upperChar (c : Char) : List Char :=
  match foreignCapitals.lookup c with
  | some capitals => capitals.toList
  | none => [c.toUpper]

def lower (s : String) : String := String.ofList (s.toList.flatMap lowerChar)

def upper (s : String) : String := String.ofList (s.toList.flatMap upperChar)

def occursIn (phrase : List Char) : List Char → Bool
  | [] => phrase.isEmpty
  | c :: s => phrase.isPrefixOf (c :: s) || occursIn phrase s

theorem occursIn_iff {phrase s : List Char} : occursIn phrase s = true ↔ phrase <:+: s := by
  induction s with
  | nil => simp [occursIn, List.isEmpty_iff]
  | cons c s ih => simp [occursIn, ih, List.infix_cons_iff]

end ScreenPlan.Text
