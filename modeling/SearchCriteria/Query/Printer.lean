import SearchCriteria.Query

/-!
# Criteria texts of queries

A query is printed with single spaces and with parentheses only where reading
the text back would otherwise group it in another way.
-/

namespace SearchCriteria

/-- Whether a side of a junction is written in parentheses. The junction `or` binds
looser than `and`, and equal junctions group to the left. -/
def Junction.groups (junction : Junction) (onRight : Bool) (side : Query) : Bool :=
  match side.junction? with
  | none => false
  | some .or => junction = .and || onRight
  | some .and => junction = .and && onRight

namespace Query

/-- A printed side of a junction, in parentheses if it is grouped. -/
def enclose (grouped : Bool) (text : String) : String :=
  if grouped then "(" ++ text ++ ")" else text

/-- The criteria text of a query. -/
def print : Query → String
  | allResults => "*"
  | relational property relation =>
    property ++ " " ++ relation.operator.keyword ++ " " ++ relation.operand.print
  | joined junction left right =>
    enclose (junction.groups false left) left.print ++ " " ++ junction.keyword ++ " " ++
      enclose (junction.groups true right) right.print

/-- The number of opening parentheses that printing writes around sides. -/
def groupCount : Query → Nat
  | joined junction left right =>
    ((junction.groups false left).toNat + left.groupCount) +
      ((junction.groups true right).toNat + right.groupCount)
  | _ => 0

/-- The most parentheses open at once around sides in the printed text. -/
def groupDepth : Query → Nat
  | joined junction left right =>
    max ((junction.groups false left).toNat + left.groupDepth)
      ((junction.groups true right).toNat + right.groupDepth)
  | _ => 0

end Query

end SearchCriteria
