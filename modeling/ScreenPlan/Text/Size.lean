import ScreenPlan.Decimal.Quantity

/-!
# Size limits

Texts are measured by the bytes of their UTF-8 form. A limit is mentioned in the words in which it
was given.
-/

namespace ScreenPlan

structure Limit where
  bound : Quantity
  text : String

namespace Limit

def ofNat (n : Nat) : Limit := ⟨.whole n, toString n⟩

def exceededBy (l : Limit) (n : Nat) : Bool := l.bound.below n

theorem exceededBy_ofNat (m n : Nat) : (ofNat m).exceededBy n = decide (m < n) := by
  simp [ofNat, exceededBy, Quantity.below]

end Limit

namespace Text

structure Oversize where
  name : String
  size : Nat
  limit : String
  deriving DecidableEq, Repr

def Oversize.message (e : Oversize) : String :=
  e.name ++ " size " ++ toString e.size ++ " bytes exceeds maximum " ++ e.limit ++ " bytes"

def checkSize (text : String) (limit : Limit) (name : String) : Except Oversize Unit :=
  if limit.exceededBy text.utf8ByteSize then .error ⟨name, text.utf8ByteSize, limit.text⟩ else .ok ()

end Text
end ScreenPlan
