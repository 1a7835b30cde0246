import ScreenPlan.Text.Blank
import ScreenPlan.Text.Displayed

/-!
# Code points

A text that comes from outside is a row of code points. Some of them are halves of characters and
may stand alone or in the wrong order; a text with one of these in it cannot be encoded.
-/

namespace ScreenPlan.Text

/-- A code point that is one half of a character. -/
structure Half where
  code : Nat
  least : 0xd800 ≤ code
  greatest : code ≤ 0xdfff
  deriving DecidableEq, Repr

inductive Point where
  | char (c : Char)
  | half (h : Half)
  deriving DecidableEq, Repr

namespace Point

def isHalf : Point → Bool
  | .char _ => false
  | .half _ => true

def isBlank : Point → Bool
  | .char c => Text.isBlank c
  | .half _ => false

end Point

def points (s : String) : List Point := s.toList.map .char

/-- The first halves in a text: one at a position, and how many more come right behind it. -/
structure Unencodable where
  first : Half
  position : Nat
  more : Nat
  deriving DecidableEq, Repr

def Unencodable.message (e : Unencodable) : String :=
  let place := if e.more = 0 then
      " '" ++ String.ofList (hexEscape e.first.code) ++ "' in position " ++ toString e.position
    else "s in position " ++ toString e.position ++ "-" ++ toString (e.position + e.more)
  "'utf-8' codec can't encode character" ++ place ++ ": surrogates not allowed"

/-- The characters of a text that has nothing else in it; its first code point has the given position. -/
def charactersFrom (position : Nat) : List Point → Except Unencodable (List Char)
  | [] => .ok []
  | .char c :: s => (charactersFrom (position + 1) s).map (c :: ·)
  | .half h :: s => .error ⟨h, position, (s.takeWhile Point.isHalf).length⟩

def characters (s : List Point) : Except Unencodable (List Char) := charactersFrom 0 s

end ScreenPlan.Text
