import SearchCriteria.Query.Encoding

/-!
# Canonical values of queries

Several values may hold the same query: the wildcard may be an object with null, and
a relational expression may have further members. The canonical value has neither.
-/

namespace SearchCriteria.Value

/-- The members of a relational expression, in order, and no others. -/
def ownMembers (members : List (String × Value)) : List (String × Value) :=
  ["property", "relation"].filterMap fun name => (member? members name).map (name, ·)

/-- The value with the wildcard as a bare name and with no further members, wherever
a query may stand. Values that hold no query are left as they are. -/
def canonical : Value → Value
  | object [("all_results", null)] => string "all_results"
  | object [("relational", object members)] => tagged "relational" (object (ownMembers members))
  | object [("and", array [left, right])] => tagged "and" (array [canonical left, canonical right])
  | object [("or", array [left, right])] => tagged "or" (array [canonical left, canonical right])
  | value => value

end SearchCriteria.Value
