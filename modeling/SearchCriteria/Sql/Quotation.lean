import SearchCriteria.Query
import SearchCriteria.Sql.Lexeme

/-!
# What of a query is quoted

The texts of a query that its SQL condition holds in quotes, in order.
-/

namespace SearchCriteria.Sql

/-- The quoted parts of a comparison: the column and the literal, and both once more,
with the dot of a path, where one class derives from another. -/
def Lexeme.ofComparison (property text : String) : Comparison → List Lexeme
  | .derivedFrom => [column property, literal text, column property, literal (text.push '.')]
  | _ => [column property, literal text]

/-- The quoted parts of a relational expression. -/
def Lexeme.ofRelation (property : String) : Relation → List Lexeme
  | .compare comparison text => ofComparison property text comparison
  | .existence _ => [column property]

/-- The quoted parts of a query, from left to right. -/
def Lexeme.ofQuery : Query → List Lexeme
  | .allResults => []
  | .relational property relation => ofRelation property relation
  | .joined _ left right => ofQuery left ++ ofQuery right

end SearchCriteria.Sql
