import StepGraph.Decimal.Binary64
import StepGraph.Value

/-!
Doubles that are no numbers. A strict document has none of them: `Value.finite` puts null in their
place, and `Value.isFinite` tells whether there are any.
-/
namespace StepGraph

def Scalar.isFinite : Scalar → Bool
  | .float x =>
    match Decimal.Reading.ofFloat x with
    | .finite _ => true
    | _ => false
  | _ => true

def Scalar.finite (s : Scalar) : Scalar := if s.isFinite then s else .null

namespace Value

mutual

def finite : Value → Value
  | .scalar s => .scalar s.finite
  | .list xs => .list (finiteItems xs)
  | .object es => .object (finiteEntries es)

def finiteItems : List Value → List Value
  | [] => []
  | x :: rest => finite x :: finiteItems rest

def finiteEntries : List (String × Value) → List (String × Value)
  | [] => []
  | (k, x) :: rest => (k, finite x) :: finiteEntries rest

end

mutual

def isFinite : Value → Bool
  | .scalar s => s.isFinite
  | .list xs => areFinite xs
  | .object es => haveFinite es

def areFinite : List Value → Bool
  | [] => true
  | x :: rest => isFinite x && areFinite rest

def haveFinite : List (String × Value) → Bool
  | [] => true
  | (_, x) :: rest => isFinite x && haveFinite rest

end

end Value

end StepGraph
