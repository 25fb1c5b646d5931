/-!
# Values

The values in which queries are stored and sent: null, truth values, decimal
numbers, strings, arrays, and objects with named members.
-/

namespace SearchCriteria

/-- A stored value. -/
inductive Value where
  | null
  | boolean (value : Bool)
  /-- The coefficient divided by ten to the power of `places`. -/
  | number (coefficient : Int) (places : Nat)
  | string (text : String)
  | array (items : List Value)
  | object (members : List (String × Value))
  deriving Inhabited

/-- The member of this name. -/
def Value.member? (members : List (String × Value)) (name : String) : Option Value :=
  members.lookup name

end SearchCriteria
