import ScreenPlan.Decimal.Quantity
import ScreenPlan.Digest.Algorithm
import ScreenPlan.Json.Value

/-!
# Least recently used

A bounded store whose entries expire. Entries are filed under digests of their keys and stand in
the order of their last use, the least recent one first; a full store gives up its first entry.
Expiry is noticed by lookups only.
-/

namespace ScreenPlan

structure Entry (α : Type) where
  digest : String
  value : α
  storedAt : Float

structure Lru (α : Type) where
  capacity : Nat
  capacity_pos : 0 < capacity
  /-- Seconds after which an entry has expired. -/
  ttl : Option Quantity
  algorithm : Digest.Algorithm := .xxhash64
  entries : List (Entry α) := []
  /-- The number of entries as last reported. -/
  size : Nat := 0
  hits : Nat := 0
  misses : Nat := 0
  evictions : Nat := 0

inductive LruError where
  | notPositive
  deriving DecidableEq, Repr

def LruError.message : LruError → String
  | .notPositive => "max_size must be positive"

namespace Lru
variable {α : Type}

def make (capacity : Int) (ttl : Option Quantity) (algorithm : Digest.Algorithm) :
    Except LruError (Lru α) :=
  if h : 0 < capacity.toNat then
    .ok { capacity := capacity.toNat, capacity_pos := h, ttl := ttl, algorithm := algorithm }
  else .error .notPositive

def length (c : Lru α) : Nat := c.entries.length

def digestOf (c : Lru α) (key : String) : String := Digest.entryKey c.algorithm key

def find? (c : Lru α) (key : String) : Option (Entry α) :=
  c.entries.find? fun e => decide (e.digest = c.digestOf key)

/-- Expired entries count until a lookup meets them. -/
def contains (c : Lru α) (key : String) : Bool := (c.find? key).isSome

/-- The entries of all other keys. -/
def others (c : Lru α) (key : String) : List (Entry α) :=
  c.entries.filter fun e => decide (e.digest ≠ c.digestOf key)

def expired (c : Lru α) (now : Float) (e : Entry α) : Bool :=
  match c.ttl with
  | none => false
  | some ttl => ttl.atMost (now - e.storedAt)

/-- A hit makes the entry the most recent one, an expired entry is dropped. -/
def get (c : Lru α) (key : String) (now : Float) : Option α × Lru α :=
  match c.find? key with
  | none => (none, { c with misses := c.misses + 1 })
  | some e =>
    if c.expired now e then
      (none, { c with
        entries := c.others key, size := (c.others key).length, misses := c.misses + 1 })
    else (some e.value, { c with entries := c.others key ++ [e], hits := c.hits + 1 })

def set (c : Lru α) (key : String) (v : α) (now : Float) : Lru α :=
  let entries := c.others key ++ [⟨c.digestOf key, v, now⟩]
  if c.capacity < entries.length then
    { c with
      entries := entries.drop 1, size := (entries.drop 1).length, evictions := c.evictions + 1 }
  else { c with entries := entries, size := entries.length }

def delete (c : Lru α) (key : String) : Bool × Lru α :=
  (c.contains key, { c with entries := c.others key, size := (c.others key).length })

def clear (c : Lru α) : Lru α := { c with entries := [], size := 0 }

end Lru

/-- The figures of a store. -/
structure CacheStats where
  size : Int := 0
  capacity : Int := 0
  hits : Quantity := .whole 0
  misses : Quantity := .whole 0
  evictions : Int := 0

namespace CacheStats

/-- The share of lookups that were hits; zero before the first one. -/
def hitRate (s : CacheStats) : Except QuantityError Float :=
  match s.hits.add s.misses with
  | .error e => .error e
  | .ok lookups => if lookups.isPositive then s.hits.quotient lookups else .ok 0.0

def toTable (s : CacheStats) : Except QuantityError (Table Value) :=
  s.hitRate.map fun rate =>
    [("size", .int s.size), ("max_size", .int s.capacity), ("hits", s.hits.toValue),
      ("misses", s.misses.toValue), ("evictions", .int s.evictions), ("hit_rate", .float rate)]

end CacheStats

def Lru.stats {α : Type} (c : Lru α) : CacheStats :=
  { size := c.size, capacity := c.capacity, hits := .whole c.hits, misses := .whole c.misses
    evictions := c.evictions }

end ScreenPlan
