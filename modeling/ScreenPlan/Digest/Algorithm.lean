import ScreenPlan.Digest.Sha256
import ScreenPlan.Digest.XxHash64

/-!
# Digests of text

Hexadecimal digests of UTF-8 text, whole or truncated, and digests of several fields together.
-/

namespace ScreenPlan.Digest

inductive Algorithm where
  | xxhash64
  | sha256
  deriving DecidableEq, Repr

structure UnknownAlgorithm where
  name : String
  deriving DecidableEq, Repr

def UnknownAlgorithm.message (e : UnknownAlgorithm) : String := "Unknown algorithm: " ++ e.name

namespace Algorithm

/-- Algorithms are known by their exact names. -/
def named (name : String) : Except UnknownAlgorithm Algorithm :=
  if name = "xxhash64" then .ok .xxhash64
  else if name = "sha256" then .ok .sha256
  else .error ⟨name⟩

def digest (a : Algorithm) (bytes : List UInt8) : String :=
  match a with
  | .xxhash64 => hex (XxHash64.digest bytes)
  | .sha256 => hex (Sha256.digest bytes)

def ofText (a : Algorithm) (text : String) : String := a.digest text.toUTF8.toList

end Algorithm

/-- Keeps so many characters; zero keeps all, a negative count drops that many from the end. -/
def truncated (digest : String) (count : Int) : String :=
  if count = 0 then digest
  else
    let kept := if count < 0 then digest.length - count.natAbs else count.natAbs
    String.ofList (digest.toList.take kept)

/-- The text that stands for several fields: a NUL separates them. -/
def joined (fields : List String) : String := String.intercalate "\x00" fields

/-- Keys of stored entries have at most sixteen digits. -/
def entryKey (a : Algorithm) (text : String) : String := truncated (a.ofText text) 16

end ScreenPlan.Digest
