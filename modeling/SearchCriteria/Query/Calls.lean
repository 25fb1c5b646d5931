import SearchCriteria.Query.Visitor

/-!
# Call records

A walk over a query that goes down to the left side before the right one makes
one call for each node. Made before its two sides, the calls of the junctions tell
how the leaves are grouped; made between them, they tell what a reader meets in order.
-/

namespace SearchCriteria

/-- What a walk reports of one node. -/
inductive Call where
  | allResults
  | joined (junction : Junction)
  | compare (comparison : Comparison) (property text : String)
  | existence (property : String) (present : Bool)
  deriving DecidableEq

/-- The call for a relational expression. -/
def Call.ofRelation (property : String) : Relation → Call
  | .compare comparison text => .compare comparison property text
  | .existence present => .existence property present

/-- The calls of a walk over a query, each junction before its two sides. -/
def Query.calls : Query → List Call
  | allResults => [.allResults]
  | relational property relation => [.ofRelation property relation]
  | joined junction left right => .joined junction :: (left.calls ++ right.calls)

/-- The calls of a walk over a query, each junction between its two sides. -/
def Query.callsInOrder : Query → List Call
  | allResults => [.allResults]
  | relational property relation => [.ofRelation property relation]
  | joined junction left right =>
    left.callsInOrder ++ .joined junction :: right.callsInOrder

/-- The visitor that reports each call with its arguments. It goes down to the left side of a
junction before the right one. -/
def Visitor.recorder (descend : Query → List Call) : Visitor (List Call) where
  allResults := [.allResults]
  and left right := .joined .and :: (descend left ++ descend right)
  or left right := .joined .or :: (descend left ++ descend right)
  equals property text := [.compare .equals property text]
  notEquals property text := [.compare .notEquals property text]
  lessThan property text := [.compare .lessThan property text]
  lessOrEqual property text := [.compare .lessOrEqual property text]
  greaterThan property text := [.compare .greaterThan property text]
  greaterOrEqual property text := [.compare .greaterOrEqual property text]
  contains property text := [.compare .contains property text]
  doesNotContain property text := [.compare .doesNotContain property text]
  derivedFrom property text := [.compare .derivedFrom property text]
  existence property present := [.existence property present]

/-- The leaf that a call is for; a junction is no leaf. -/
def Call.leaf? : Call → Option Query
  | allResults => some .allResults
  | joined _ => none
  | compare comparison property text => some (.relational property (.compare comparison text))
  | existence property present => some (.relational property (.existence present))

/-- Whether a call is for a junction. -/
def Call.isJunction : Call → Bool
  | joined _ => true
  | _ => false

@[simp] theorem Call.isJunction_joined (junction : Junction) :
    (Call.joined junction).isJunction = true := rfl

@[simp] theorem Call.isJunction_ofRelation (property : String) (relation : Relation) :
    (Call.ofRelation property relation).isJunction = false := by
  cases relation <;> rfl

@[simp] theorem Call.leaf?_ofRelation (property : String) (relation : Relation) :
    (Call.ofRelation property relation).leaf? = some (.relational property relation) := by
  cases relation <;> rfl

end SearchCriteria
