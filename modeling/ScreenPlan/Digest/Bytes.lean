/-!
# Byte strings

Cutting bytes into blocks, assembling words from them, and hexadecimal text.
-/

namespace ScreenPlan.Digest

/-- The first `count` blocks of `size` bytes. -/
def blocks (size : Nat) : Nat → List UInt8 → List (List UInt8)
  | 0, _ => []
  | count + 1, bs => bs.take size :: blocks size count (bs.drop size)

/-- All full blocks and the bytes after them. -/
def split (size : Nat) (bs : List UInt8) : List (List UInt8) × List UInt8 :=
  (blocks size (bs.length / size) bs, bs.drop (bs.length / size * size))

theorem flatten_blocks (size count : Nat) (bs : List UInt8) :
    (blocks size count bs).flatten = bs.take (count * size) := by
  induction count generalizing bs with
  | zero => simp [blocks]
  | succ count ih =>
    rw [blocks, List.flatten_cons, ih, Nat.succ_mul, Nat.add_comm, List.take_add]

theorem split_append (size : Nat) (bs : List UInt8) :
    (split size bs).1.flatten ++ (split size bs).2 = bs := by
  simp [split, flatten_blocks]

def littleEndian (bs : List UInt8) : Nat := bs.foldr (fun b n => n * 256 + b.toNat) 0

def bigEndian (bs : List UInt8) : Nat := bs.foldl (fun n b => n * 256 + b.toNat) 0

/-- The lowest `count` bytes of a number, highest first. -/
def bytesOf (n : Nat) : Nat → List UInt8
  | 0 => []
  | count + 1 => bytesOf (n / 256) count ++ [UInt8.ofNat n]

def hex (bs : List UInt8) : String :=
  String.ofList (bs.flatMap fun b => [Nat.digitChar (b.toNat / 16), Nat.digitChar (b.toNat % 16)])

theorem length_bytesOf (n count : Nat) : (bytesOf n count).length = count := by
  induction count generalizing n with
  | zero => rfl
  | succ count ih => simp [bytesOf, ih]

end ScreenPlan.Digest
