import ScreenPlan.Digest.Bytes

/-!
# XXH64 with seed 0

A fast hash without cryptographic claims. Four lanes take stripes of 32 bytes; what is left over is
mixed in by words of eight bytes, four bytes and one.
-/

namespace ScreenPlan.Digest.XxHash64

def prime1 : UInt64 := 0x9e3779b185ebca87
def prime2 : UInt64 := 0xc2b2ae3d27d4eb4f
def prime3 : UInt64 := 0x165667b19e3779f9
def prime4 : UInt64 := 0x85ebca77c2b2ae63
def prime5 : UInt64 := 0x27d4eb2f165667c5

def rotate (x : UInt64) (n : UInt64) : UInt64 := (x <<< n) ||| (x >>> (64 - n))

def word (bs : List UInt8) : UInt64 := UInt64.ofNat (littleEndian bs)

def round (acc input : UInt64) : UInt64 := rotate (acc + input * prime2) 31 * prime1

structure Lanes where
  a : UInt64
  b : UInt64
  c : UInt64
  d : UInt64

def Lanes.start : Lanes := ⟨prime1 + prime2, prime2, 0, 0 - prime1⟩

def Lanes.take (l : Lanes) (stripe : List UInt8) : Lanes :=
  ⟨round l.a (word (stripe.take 8)), round l.b (word ((stripe.drop 8).take 8)),
    round l.c (word ((stripe.drop 16).take 8)), round l.d (word (stripe.drop 24))⟩

def Lanes.merge (l : Lanes) : UInt64 :=
  let h := rotate l.a 1 + rotate l.b 7 + rotate l.c 12 + rotate l.d 18
  [l.a, l.b, l.c, l.d].foldl (fun h lane => (h ^^^ round 0 lane) * prime1 + prime4) h

def mixLong (h : UInt64) (bs : List UInt8) : UInt64 :=
  rotate (h ^^^ round 0 (word bs)) 27 * prime1 + prime4

def mixShort (h : UInt64) (bs : List UInt8) : UInt64 :=
  rotate (h ^^^ word bs * prime1) 23 * prime2 + prime3

def mixByte (h : UInt64) (b : UInt8) : UInt64 :=
  rotate (h ^^^ b.toUInt64 * prime5) 11 * prime1

def avalanche (h : UInt64) : UInt64 :=
  let h := (h ^^^ (h >>> 33)) * prime2
  let h := (h ^^^ (h >>> 29)) * prime3
  h ^^^ (h >>> 32)

def hash (bs : List UInt8) : UInt64 :=
  let (stripes, rest) := split 32 bs
  let start := if stripes.isEmpty then prime5 else (stripes.foldl Lanes.take Lanes.start).merge
  let (longs, rest) := split 8 rest
  let (shorts, rest) := split 4 rest
  let h := longs.foldl mixLong (start + UInt64.ofNat bs.length)
  avalanche (rest.foldl mixByte (shorts.foldl mixShort h))

/-- The hash as eight bytes, highest first. -/
def digest (bs : List UInt8) : List UInt8 := bytesOf (hash bs).toNat 8

end ScreenPlan.Digest.XxHash64
