import SearchCriteria.Query
import SearchCriteria.Value

/-!
# Queries as values

A relation, a junction and the wildcard are tagged with their names: an object
with the tag as its only member holds what belongs to it. Nothing but an encoded
query is decoded, except that the wildcard may hold null and that a relational
expression may have members beside its own.
-/

namespace SearchCriteria

/-- The comparison of this name. -/
def Comparison.ofName? (name : String) : Option Comparison :=
  all.find? (·.name = name)

/-- The operator of this name. -/
def Operator.ofName? (name : String) : Option Operator :=
  all.find? (·.name = name)

/-- The junction of this keyword. -/
def Junction.ofKeyword? (keyword : String) : Option Junction :=
  if keyword = "and" then some .and
  else if keyword = "or" then some .or
  else none

/-- An object with a single member. -/
def Value.tagged (tag : String) (content : Value) : Value := .object [(tag, content)]

/-- An operator as a value: its name. -/
def Operator.encode (operator : Operator) : Value := .string operator.name

/-- The operator of a value: its name alone, or with null. -/
def Operator.decode : Value → Option Operator
  | .string name => ofName? name
  | .object [(name, .null)] => ofName? name
  | _ => none

/-- A relation as a value: its operand, tagged with its operator. -/
def Relation.encode : Relation → Value
  | compare comparison text => .tagged comparison.name (.string text)
  | existence present => .tagged Operator.existence.name (.boolean present)

/-- The relation of a value. -/
def Relation.decode : Value → Option Relation
  | .object [(name, .string text)] => (Comparison.ofName? name).map (compare · text)
  | .object [(name, .boolean present)] =>
    if name = Operator.existence.name then some (existence present) else none
  | _ => none

namespace Query

/-- A query as a value. -/
def encode : Query → Value
  | allResults => .string "all_results"
  | relational property relation =>
    .tagged "relational"
      (.object [("property", .string property), ("relation", relation.encode)])
  | joined junction left right =>
    .tagged junction.keyword (.array [left.encode, right.encode])

/-- The relational expression of an object's members. -/
def decodeRelational (members : List (String × Value)) : Option Query :=
  match Value.member? members "property", Value.member? members "relation" with
  | some (.string property), some relation =>
    (Relation.decode relation).map (relational property)
  | _, _ => none

/-- The query of a value. -/
def decode : Value → Option Query
  | .string name => if name = "all_results" then some allResults else none
  | .object [(tag, .null)] => if tag = "all_results" then some allResults else none
  | .object [(tag, .object members)] =>
    if tag = "relational" then decodeRelational members else none
  | .object [(tag, .array [left, right])] => do
    let junction ← Junction.ofKeyword? tag
    let left ← decode left
    let right ← decode right
    return joined junction left right
  | _ => none

end Query

end SearchCriteria
