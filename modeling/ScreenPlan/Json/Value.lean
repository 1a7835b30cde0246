/-!
# Values

JSON values with exact integers, objects that keep the order of their keys, and a few foreign
values that hosts hand over although they have no JSON form.
-/

namespace ScreenPlan

/-- A value of the host program that is no JSON value. -/
inductive Foreign where
  | bytes (text : String)
  | complex (re im : Float)

inductive Value where
  | null
  | bool (b : Bool)
  | int (n : Int)
  | float (x : Float)
  | str (s : String)
  | list (items : List Value)
  | object (fields : List (String × Value))
  | foreign (f : Foreign)
  deriving Inhabited

/-- Named entries in order; a name occurs once in every table the program builds. -/
abbrev Table (α : Type) := List (String × α)

namespace Table
variable {α β : Type}

def get? : Table α → String → Option α
  | [], _ => none
  | (k, v) :: t, key => if k = key then some v else get? t key

def has (t : Table α) (key : String) : Bool := (t.get? key).isSome

/-- A known name keeps its position, a new one goes to the end. -/
def put : Table α → String → α → Table α
  | [], key, v => [(key, v)]
  | (k, w) :: t, key, v => if k = key then (k, v) :: t else (k, w) :: put t key v

def erase (t : Table α) (key : String) : Table α := t.filter (·.1 ≠ key)

def putAll (t : Table α) (entries : List (String × α)) : Table α :=
  entries.foldl (fun t e => put t e.1 e.2) t

def ofPairs (entries : List (String × α)) : Table α := putAll [] entries

def names (t : Table α) : List String := t.map (·.1)

@[simp] theorem get?_nil (key : String) : get? ([] : Table α) key = none := rfl

theorem get?_cons (k key : String) (v : α) (t : Table α) :
    get? ((k, v) :: t) key = if k = key then some v else get? t key := rfl

theorem get?_put (t : Table α) (key other : String) (v : α) :
    (t.put key v).get? other = if key = other then some v else t.get? other := by
  induction t with
  | nil => rfl
  | cons e t ih =>
    obtain ⟨k, w⟩ := e
    by_cases same : k = key
    · subst same
      by_cases h : k = other <;> simp [put, get?_cons, h]
    · simp only [put, same, if_false, get?_cons, ih]
      by_cases h : k = other
      · simp [h, show ¬ key = other from fun e => same (h.trans e.symm)]
      · simp [h]

theorem get?_erase (t : Table α) (key other : String) :
    (t.erase key).get? other = if key = other then none else t.get? other := by
  induction t with
  | nil => simp [erase]
  | cons e t ih =>
    obtain ⟨k, w⟩ := e
    simp only [erase] at ih
    by_cases same : k = key
    · subst same
      by_cases h : k = other <;> simp_all [erase, get?_cons]
    · by_cases h : k = other <;> by_cases h' : key = other <;> simp_all [erase, get?_cons]

theorem mem_of_get? {t : Table α} {key : String} {v : α} (h : t.get? key = some v) :
    (key, v) ∈ t := by
  induction t with
  | nil => simp at h
  | cons e t ih =>
    obtain ⟨k, w⟩ := e
    simp only [get?_cons] at h
    split at h
    · next same => simp_all
    · exact List.mem_cons_of_mem _ (ih h)

end Table

namespace Value

mutual
/-- How deep containers nest; an empty container holds nothing and counts as a leaf. -/
def height : Value → Nat
  | .list [] => 0
  | .list (x :: xs) => max x.height (heightItems xs) + 1
  | .object [] => 0
  | .object ((_, v) :: fs) => max v.height (heightFields fs) + 1
  | _ => 0

def heightItems : List Value → Nat
  | [] => 0
  | x :: xs => max x.height (heightItems xs)

def heightFields : List (String × Value) → Nat
  | [] => 0
  | (_, v) :: fs => max v.height (heightFields fs)
end

/-- The name under which messages mention the value's type. -/
def typeName : Value → String
  | .null => "NoneType"
  | .bool _ => "bool"
  | .int _ => "int"
  | .float _ => "float"
  | .str _ => "str"
  | .list _ => "list"
  | .object _ => "dict"
  | .foreign (.bytes _) => "bytes"
  | .foreign (.complex _ _) => "complex"

def fields? : Value → Option (Table Value)
  | .object fs => some fs
  | _ => none

def items? : Value → Option (List Value)
  | .list xs => some xs
  | _ => none

def text? : Value → Option String
  | .str s => some s
  | _ => none

def isText (v : Value) : Bool := v.text?.isSome

/-- Does the value count as something? Null, false, zero and whatever is empty do not. -/
def isPresent : Value → Bool
  | .null => false
  | .bool b => b
  | .int n => decide (n ≠ 0)
  | .float x => x != 0
  | .str s => !s.isEmpty
  | .list xs => !xs.isEmpty
  | .object fs => !fs.isEmpty
  | .foreign (.bytes s) => !s.isEmpty
  | .foreign (.complex re im) => re != 0 || im != 0

theorem sizeOf_pos (v : Value) : 0 < sizeOf v := by
  cases v
  case null => exact Nat.one_pos
  all_goals exact Nat.lt_of_lt_of_le Nat.one_pos (Nat.le_add_right ..)

theorem sizeOf_lt_of_mem {t : Table Value} {key : String} {v : Value} (h : (key, v) ∈ t) :
    sizeOf v < sizeOf (Value.object t) := by
  have := List.sizeOf_lt_of_mem h
  simp only [Prod.mk.sizeOf_spec, object.sizeOf_spec] at this ⊢
  omega

theorem sizeOf_lt_of_get? {t : Table Value} {key : String} {v : Value} (h : t.get? key = some v) :
    sizeOf v < sizeOf (Value.object t) :=
  sizeOf_lt_of_mem (Table.mem_of_get? h)

end Value
end ScreenPlan
