import SearchCriteria.Query
import SearchCriteria.Sql.Quoted

/-!
# SQL conditions

A query becomes a boolean expression for the `WHERE` clause of a SQL statement,
in which each property names a column. Every junction stands in parentheses, so
the text does not rest on the precedence of SQL.
-/

namespace SearchCriteria.Sql

/-- The comparison operators of SQL. -/
inductive Comparator where
  | equal
  | notEqual
  | less
  | lessOrEqual
  | greater
  | greaterOrEqual
  deriving DecidableEq

/-- The operator as SQL writes it. -/
def Comparator.symbol : Comparator → String
  | equal => "="
  | notEqual => "<>"
  | less => "<"
  | lessOrEqual => "<="
  | greater => ">"
  | greaterOrEqual => ">="

/-- The boolean expressions that queries become. -/
inductive Condition where
  /-- The constant that holds of every row. -/
  | always
  /-- The column compares with the literal. -/
  | compare (column : String) (comparator : Comparator) (literal : String)
  /-- The literal occurs in the column, or it does not. -/
  | occurs (column literal : String) (found : Bool)
  /-- The column begins with the literal. -/
  | startsWith (column literal : String)
  /-- The column is null, or it is not. -/
  | isNull (column : String) (null : Bool)
  /-- Two conditions, joined. -/
  | joined (junction : Junction) (left right : Condition)
  deriving DecidableEq

/-- The condition that compares a column with a text. Classes are dotted paths: one
derives from another if it is the same or goes on behind it with a dot. -/
def Condition.ofComparison (column text : String) : Comparison → Condition
  | .equals => .compare column .equal text
  | .notEquals => .compare column .notEqual text
  | .lessThan => .compare column .less text
  | .lessOrEqual => .compare column .lessOrEqual text
  | .greaterThan => .compare column .greater text
  | .greaterOrEqual => .compare column .greaterOrEqual text
  | .contains => .occurs column text true
  | .doesNotContain => .occurs column text false
  | .derivedFrom =>
    .joined .or (.compare column .equal text) (.startsWith column (text.push '.'))

/-- The condition of a relational expression. -/
def Condition.ofRelation (column : String) : Relation → Condition
  | .compare comparison text => ofComparison column text comparison
  | .existence present => .isNull column (!present)

/-- The condition under which a row matches a query. -/
def Condition.ofQuery : Query → Condition
  | .allResults => always
  | .relational property relation => ofRelation property relation
  | .joined junction left right => joined junction (ofQuery left) (ofQuery right)

/-- The junction as SQL writes it. -/
def keyword : Junction → String
  | .and => "AND"
  | .or => "OR"

/-- The text of a condition. -/
def Condition.render : Condition → String
  | always => "TRUE"
  | compare column comparator literal =>
    quoteColumn column ++ " " ++ comparator.symbol ++ " " ++ quoteLiteral literal
  | occurs column literal found =>
    "strpos(" ++ quoteColumn column ++ ", " ++ quoteLiteral literal ++
      if found then ") > 0" else ") = 0"
  | startsWith column literal =>
    "starts_with(" ++ quoteColumn column ++ ", " ++ quoteLiteral literal ++ ")"
  | isNull column null => quoteColumn column ++ if null then " IS NULL" else " IS NOT NULL"
  | joined junction left right =>
    "(" ++ left.render ++ " " ++ keyword junction ++ " " ++ right.render ++ ")"

end Sql

/-- The query as the text of a SQL condition. -/
def Query.sql (query : Query) : String := (Sql.Condition.ofQuery query).render

end SearchCriteria
