import SearchCriteria.Query

/-!
# Visitors

What is done with a query depends on the kind of its root. A visitor has a method for each
kind and none for all others, so that no kind can be forgotten. The methods for the junctions
receive both sides as they are: whether the visitor goes down to them, and in which order, is
its own choice.
-/

namespace SearchCriteria

/-- What is done with a query, for each kind that its root may be of. -/
structure Visitor (ρ : Type) where
  allResults : ρ
  and (left right : Query) : ρ
  or (left right : Query) : ρ
  equals (property text : String) : ρ
  notEquals (property text : String) : ρ
  lessThan (property text : String) : ρ
  lessOrEqual (property text : String) : ρ
  greaterThan (property text : String) : ρ
  greaterOrEqual (property text : String) : ρ
  contains (property text : String) : ρ
  doesNotContain (property text : String) : ρ
  derivedFrom (property text : String) : ρ
  existence (property : String) (present : Bool) : ρ

/-- Calls the method for the kind of the root. -/
def Query.accept {ρ : Type} (visitor : Visitor ρ) : Query → ρ
  | allResults => visitor.allResults
  | joined .and left right => visitor.and left right
  | joined .or left right => visitor.or left right
  | relational property (.compare .equals text) => visitor.equals property text
  | relational property (.compare .notEquals text) => visitor.notEquals property text
  | relational property (.compare .lessThan text) => visitor.lessThan property text
  | relational property (.compare .lessOrEqual text) => visitor.lessOrEqual property text
  | relational property (.compare .greaterThan text) => visitor.greaterThan property text
  | relational property (.compare .greaterOrEqual text) => visitor.greaterOrEqual property text
  | relational property (.compare .contains text) => visitor.contains property text
  | relational property (.compare .doesNotContain text) => visitor.doesNotContain property text
  | relational property (.compare .derivedFrom text) => visitor.derivedFrom property text
  | relational property (.existence present) => visitor.existence property present

end SearchCriteria
