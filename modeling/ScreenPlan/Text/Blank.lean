/-!
# Blank characters

Spaces together with the four information separators are blank. Format characters such as the
zero-width space are neither.
-/

namespace ScreenPlan.Text

/-- The characters with the white-space property. -/
def isSpace (c : Char) : Bool :=
  let n := c.toNat
  (0x09 ≤ n && n ≤ 0x0d) || n = 0x20 || n = 0x85 || n = 0xa0 || n = 0x1680 ||
    (0x2000 ≤ n && n ≤ 0x200a) || n = 0x2028 || n = 0x2029 || n = 0x202f || n = 0x205f || n = 0x3000

def isSeparator (c : Char) : Bool := 0x1c ≤ c.toNat && c.toNat ≤ 0x1f

def isBlank (c : Char) : Bool := isSpace c || isSeparator c

/-- Without what belongs to a class at both ends. -/
def trimWhere {α : Type} (p : α → Bool) (s : List α) : List α :=
  ((s.dropWhile p).reverse.dropWhile p).reverse

/-- Without the blank characters at both ends. -/
def trimChars (s : List Char) : List Char := trimWhere isBlank s

def trim (s : String) : String := String.ofList (trimChars s.toList)

end ScreenPlan.Text
