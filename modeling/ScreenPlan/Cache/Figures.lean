import ScreenPlan.Cache.Lru

/-!
# Given figures

Figures of a store that someone else has counted. They are shown as they are given; only the
lookups have to add up, so that there is a rate of hits.
-/

namespace ScreenPlan.Figures

inductive Defect where
  | unknownName (name : String)
  /-- The figures add up to something that is neither positive nor zero nor negative. -/
  | unordered (typeName : String)
  /-- Texts and lists can be joined to their like only. -/
  | unjoined (typeName other : String)
  | unjoinedBytes (other : String)
  | noSum (typeName other : String)
  | quantity (e : QuantityError)
  deriving DecidableEq, Repr

def Defect.message : Defect → String
  | .unknownName name => "Stats.__init__() got an unexpected keyword argument '" ++ name ++ "'"
  | .unordered typeName => "'>' not supported between instances of '" ++ typeName ++ "' and 'int'"
  | .unjoined typeName other =>
    "can only concatenate " ++ typeName ++ " (not \"" ++ other ++ "\") to " ++ typeName
  | .unjoinedBytes other => "can't concat " ++ other ++ " to bytes"
  | .noSum typeName other =>
    "unsupported operand type(s) for +: '" ++ typeName ++ "' and '" ++ other ++ "'"
  | .quantity e => e.message

def names : List String := ["size", "max_size", "hits", "misses", "evictions"]

def isComplex : Value → Bool
  | .foreign (.complex _ _) => true
  | _ => false

/-- Why two figures that are not both numbers make no count of lookups. -/
def defectOf (hits misses : Value) : Defect :=
  let numeric (v : Value) : Bool := isComplex v || (Quantity.ofValue? v).isSome
  match hits, misses with
  | .str _, .str _ | .list _, .list _ | .foreign (.bytes _), .foreign (.bytes _) =>
    .unordered hits.typeName
  | .str _, _ | .list _, _ => .unjoined hits.typeName misses.typeName
  | .foreign (.bytes _), _ => .unjoinedBytes misses.typeName
  | _, _ =>
    if numeric hits && numeric misses then .unordered "complex"
    else .noSum hits.typeName misses.typeName

/-- The given figures with those that are missing and the rate of hits. -/
def toTable (given : Table Value) : Except Defect (Table Value) :=
  match given.names.find? fun name => !names.contains name with
  | some name => .error (.unknownName name)
  | none =>
    let hits := (given.get? "hits").getD (.int 0)
    let misses := (given.get? "misses").getD (.int 0)
    match Quantity.ofValue? hits, Quantity.ofValue? misses with
    | some h, some m =>
      let s : CacheStats := { hits := h, misses := m }
      (s.toTable.mapError .quantity).map fun table => table.putAll given
    | _, _ => .error (defectOf hits misses)

end ScreenPlan.Figures
