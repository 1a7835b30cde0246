import ScreenPlan.Catalog
import ScreenPlan.Decimal.Complex
import ScreenPlan.Json.Value

/-!
# Plans

A plan is a layout and a forest of nodes. Its payload is the plan as JSON data.
-/

namespace ScreenPlan

structure Node where
  kind : Kind
  props : Table Value
  children : List Node

structure Plan where
  layout : String
  components : List Node

namespace Value

mutual
/-- The value as JSON data: a number that is not finite becomes null, bytes and complex numbers
become text. -/
def settled : Value → Value
  | .float x => if x.isNaN || x.isInf then .null else .float x
  | .list xs => .list (settledItems xs)
  | .object fs => .object (settledMembers fs)
  | .foreign (.bytes s) => .str s
  | .foreign (.complex re im) => .str (String.ofList (Complex.settled re im))
  | v => v

def settledItems : List Value → List Value
  | [] => []
  | x :: xs => settled x :: settledItems xs

def settledMembers : List (String × Value) → List (String × Value)
  | [] => []
  | (k, v) :: fs => (k, settled v) :: settledMembers fs
end

end Value

namespace Node

mutual
def toValue : Node → Value
  | ⟨kind, props, children⟩ =>
    .object [("type", .str kind.name), ("props", .object (Value.settledMembers props)),
      ("children", .list (toValues children))]

def toValues : List Node → List Value
  | [] => []
  | n :: ns => toValue n :: toValues ns
end

mutual
/-- The nodes of a tree. -/
def count : Node → Nat
  | ⟨_, _, children⟩ => counts children + 1

def counts : List Node → Nat
  | [] => 0
  | n :: ns => count n + counts ns
end

mutual
/-- How far the tree reaches below its node: a child stands one level below its parent, the values
of props one below their node, the items of a container one below the container. -/
def height : Node → Nat
  | ⟨_, props, children⟩ => max (Value.object props).height (heights children)

def heights : List Node → Nat
  | [] => 0
  | n :: ns => max (height n + 1) (heights ns)
end

/-- No node and no value of a prop may stand below this level. A node by itself stands at level 0,
the components of a plan stand at level 1. -/
def maxLevel : Nat := 254

end Node

/-- Why there is no payload. -/
inductive PayloadError where
  | tooDeep
  deriving DecidableEq, Repr

def PayloadError.message : PayloadError → String
  | .tooDeep => "Maximum serialization depth exceeded"

def Node.payload (n : Node) : Except PayloadError Value :=
  if n.height ≤ maxLevel then .ok n.toValue else .error .tooDeep

namespace Plan

def toValue (p : Plan) : Value :=
  .object [("layout", .str p.layout), ("components", .list (Node.toValues p.components))]

def payload (p : Plan) : Except PayloadError Value :=
  if Node.heights p.components ≤ Node.maxLevel then .ok p.toValue else .error .tooDeep

end Plan
end ScreenPlan
