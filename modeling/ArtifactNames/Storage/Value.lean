import ArtifactNames.Number.Binary64

/-! Loose values, compared as the items of a vector are: booleans as 0 and 1, integers and doubles
by value, lists item by item, objects by their keys in any order. -/

namespace ArtifactNames.Storage

inductive Value where
  | null
  | bool (b : Bool)
  | int (n : Int)
  | float (x : Number.Binary64)
  | text (chars : List Nat)
  | list (items : List Value)
  | object (fields : List (List Nat × Value))
  deriving Repr, Inhabited

namespace Value

/-- The integer a value stands for: an integer, or a boolean as 0 or 1. -/
def asInt : Value → Option Int
  | .bool b => some (if b then 1 else 0)
  | .int n => some n
  | _ => none

/-- The name of a value's kind, as a message names it. -/
def kindName : Value → String
  | .null => "NoneType"
  | .bool _ => "bool"
  | .int _ => "int"
  | .float _ => "float"
  | .text _ => "str"
  | .list _ => "list"
  | .object _ => "dict"

mutual

def looseEq : Value → Value → Bool
  | .null, .null => true
  | .text a, .text b => a == b
  | .list a, .list b => looseEqList a b
  | .object a, .object b => a.length == b.length && looseEqFields a b
  | .float x, .float y => x.equals y
  | .float x, b => (b.asInt.map x.equalsInt).getD false
  | a, .float y => (a.asInt.map y.equalsInt).getD false
  | a, b =>
    match a.asInt, b.asInt with
    | some x, some y => x == y
    | _, _ => false

def looseEqList : List Value → List Value → Bool
  | [], [] => true
  | a :: as, b :: bs => looseEq a b && looseEqList as bs
  | _, _ => false

/-- Every field of the first object has its key among `others`, with a loosely equal value. -/
def looseEqFields : List (List Nat × Value) → List (List Nat × Value) → Bool
  | [], _ => true
  | (k, v) :: rest, others =>
    others.any (fun field => field.1 == k && looseEq v field.2) && looseEqFields rest others

end

end Value

end ArtifactNames.Storage
