import SearchCriteria.Grammar
import SearchCriteria.Limits
import SearchCriteria.Query.Printer
import SearchCriteria.Query.Shape

/-!
# Printable queries

A query need not come from a text, and then its printed text may be none or tell
another query. What can be read back is told here by the query alone.
-/

namespace SearchCriteria.Query

/-- Whether each leaf has a property that can be read where it stands; the wildcard
cannot stand beside anything. -/
def Readable (first : Bool) : Query → Prop
  | allResults => False
  | relational property _ => Grammar.Property first property.toList
  | joined _ left right => left.Readable first ∧ right.Readable false

/-- Whether the printed text of a query is within the limits and tells the query. -/
def Printable (limits : Limits) (query : Query) : Prop :=
  query = allResults ∨
    query.Readable true ∧ query.leaves ≤ max 1 limits.maxTerms ∧
      query.groupDepth ≤ limits.maxNestingDepth

end SearchCriteria.Query
