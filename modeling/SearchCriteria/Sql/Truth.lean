import SearchCriteria.Query.Matching
import SearchCriteria.Sql.Condition

/-!
# The truth of SQL conditions

SQL knows three truth values: true, false, and unknown, which is written `none`. A
column without content is null. What is computed from null is unknown, except for
the question whether something is null.
-/

namespace SearchCriteria.Sql

/-- A truth value of SQL. -/
abbrev Truth := Option Bool

/-- The conjunction is false if a side is, and true if both are. -/
def Truth.and : Truth → Truth → Truth
  | some false, _ => some false
  | _, some false => some false
  | some true, some true => some true
  | _, _ => none

/-- The disjunction is true if a side is, and false if both are. -/
def Truth.or : Truth → Truth → Truth
  | some true, _ => some true
  | _, some true => some true
  | some false, some false => some false
  | _, _ => none

/-- Whether a content compares with a literal. -/
def Comparator.holds (content literal : String) : Comparator → Bool
  | equal => content = literal
  | notEqual => content ≠ literal
  | less => content < literal
  | lessOrEqual => content ≤ literal
  | greater => literal < content
  | greaterOrEqual => literal ≤ content

/-- The truth of a condition on a row of columns. -/
def Condition.truth (row : Item) : Condition → Truth
  | always => some true
  | compare column comparator literal => (row column).map (comparator.holds · literal)
  | occurs column literal found => (row column).map fun content =>
    Text.occursIn literal.toList content.toList = found
  | startsWith column literal => (row column).map fun content =>
    literal.toList.isPrefixOf content.toList
  | isNull column null => some ((row column).isNone = null)
  | joined .and left right => (left.truth row).and (right.truth row)
  | joined .or left right => (left.truth row).or (right.truth row)

end SearchCriteria.Sql
