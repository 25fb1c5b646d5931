import SearchCriteria.Proofs.Sql.Reread
import SearchCriteria.Sql.Truth

/-!
# The meaning of SQL conditions

The condition of a query is true of exactly the rows that match the query. Where a column is
null the condition may be unknown instead of false, which makes no difference, since no
condition negates another one.
-/

namespace SearchCriteria

namespace Sql

namespace Truth

/-- A conjunction is true if both sides are. -/
@[simp] theorem and_eq_true {left right : Truth} :
    left.and right = some true ↔ left = some true ∧ right = some true := by
  rcases left with _ | _ | _ <;> rcases right with _ | _ | _ <;> decide

/-- A disjunction is true if either side is. -/
@[simp] theorem or_eq_true {left right : Truth} :
    left.or right = some true ↔ left = some true ∨ right = some true := by
  rcases left with _ | _ | _ <;> rcases right with _ | _ | _ <;> decide

end Truth

namespace Condition

variable {row : Item}

/-- A comparison is true of the rows whose content compares with the text. -/
theorem truth_ofComparison (property text : String) (comparison : Comparison) :
    (ofComparison property text comparison).truth row = some true ↔
      (Relation.compare comparison text).holds (row property) = true := by
  cases hcontent : row property with
  | none => cases comparison <;> simp [ofComparison, truth, hcontent, Relation.holds]
  | some content =>
    cases comparison <;>
      simp [ofComparison, truth, hcontent, Relation.holds, Comparison.holds, Comparator.holds]

/-- The condition of a relation is true of the rows whose content stands in the relation. -/
theorem truth_ofRelation (property : String) (relation : Relation) :
    (ofRelation property relation).truth row = some true ↔
      relation.holds (row property) = true := by
  cases relation with
  | compare comparison text => exact truth_ofComparison property text comparison
  | existence present =>
    cases hcontent : row property <;>
      cases present <;> simp [ofRelation, truth, hcontent, Relation.holds]

/-- The condition of a query is true of the rows that match the query. -/
theorem truth_ofQuery (query : Query) :
    (ofQuery query).truth row = some true ↔ query.matches row = true := by
  induction query with
  | allResults => simp [ofQuery, truth, Query.matches]
  | relational property relation => exact truth_ofRelation property relation
  | joined junction left right ihleft ihright =>
    cases junction with
    | and =>
      rw [ofQuery, truth, Truth.and_eq_true, ihleft, ihright, Query.matches, Bool.and_eq_true]
    | or =>
      rw [ofQuery, truth, Truth.or_eq_true, ihleft, ihright, Query.matches, Bool.or_eq_true]

end Condition

end Sql

/-- The SQL text of a query is read as a condition that is true of exactly the rows that match
the query. -/
theorem Query.truth_sql (query : Query) :
    ∃ condition, Sql.Condition.parse? query.sql = some condition ∧
      ∀ row : Item, condition.truth row = some true ↔ query.matches row = true := by
  refine ⟨Sql.Condition.ofQuery query, Sql.Condition.parse?_render _, ?_⟩
  intro row
  exact Sql.Condition.truth_ofQuery query

end SearchCriteria
