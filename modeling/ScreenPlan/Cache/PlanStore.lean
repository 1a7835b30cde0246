import ScreenPlan.Cache.Lru
import ScreenPlan.Digest.Algorithm
import ScreenPlan.Plan.Written

/-!
# Stored plans

Accepted plans, stored under the request that led to them and the plan it was to change. The order
of keys in that plan makes no difference.
-/

namespace ScreenPlan

abbrev PlanStore := Lru Plan

namespace PlanStore

/-- The text that is hashed for a request and the canonical text of a previous plan. -/
def keyText (request : String) (previous : String) : String := Digest.joined [request, previous]

def previousText (previous : Option Plan) : Except Unwritable String :=
  match previous with
  | none => .ok ""
  | some p => p.canonical

def key (request : String) (previous : Option Plan) : Except Unwritable String :=
  (previousText previous).map fun text => Digest.Algorithm.xxhash64.ofText (keyText request text)

def lookUp (s : PlanStore) (key : String) (now : Float) : Option Plan × PlanStore :=
  Lru.get s key now

def store (s : PlanStore) (key : String) (p : Plan) (now : Float) : PlanStore :=
  Lru.set s key p now

end PlanStore
end ScreenPlan
