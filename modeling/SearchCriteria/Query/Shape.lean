import SearchCriteria.Query

/-!
# Shapes of queries

How large a query is, how it branches, and what of it does not depend on the texts
in its leaves.
-/

namespace SearchCriteria.Query

/-- The number of nodes that are no junctions. -/
def leaves : Query → Nat
  | joined _ left right => left.leaves + right.leaves
  | _ => 1

/-- The nodes that are no junctions, from left to right. -/
def leafList : Query → List Query
  | joined _ left right => left.leafList ++ right.leafList
  | leaf => [leaf]

/-- The number of nodes that are junctions. -/
def junctions : Query → Nat
  | joined _ left right => left.junctions + right.junctions + 1
  | _ => 0

/-- The number of junctions on the longest way down to a leaf. -/
def height : Query → Nat
  | joined _ left right => max left.height right.height + 1
  | _ => 0

/-- The most steps to a right side on a way down to a leaf. -/
def rightSteps : Query → Nat
  | joined _ left right => max left.rightSteps (right.rightSteps + 1)
  | _ => 0

/-- The query with all its properties and texts emptied. -/
def shape : Query → Query
  | allResults => allResults
  | relational _ (.compare comparison _) => relational "" (.compare comparison "")
  | relational _ (.existence present) => relational "" (.existence present)
  | joined junction left right => joined junction left.shape right.shape

theorem leaves_pos (query : Query) : 0 < query.leaves := by
  induction query with
  | allResults => exact Nat.one_pos
  | relational => exact Nat.one_pos
  | joined _ left right ihleft _ => exact Nat.add_pos_left ihleft _

/-- A query has one leaf more than it has junctions. -/
theorem junctions_add_one (query : Query) : query.junctions + 1 = query.leaves := by
  induction query with
  | allResults => rfl
  | relational => rfl
  | joined _ left right ihleft ihright =>
    simp only [junctions, leaves]
    omega

/-- A query has more leaves than junctions on any way down. -/
theorem height_lt_leaves (query : Query) : query.height < query.leaves := by
  induction query with
  | allResults => exact Nat.one_pos
  | relational => exact Nat.one_pos
  | joined _ left right ihleft ihright =>
    have hleft := left.leaves_pos
    have hright := right.leaves_pos
    simp only [height, leaves]
    omega

end SearchCriteria.Query
