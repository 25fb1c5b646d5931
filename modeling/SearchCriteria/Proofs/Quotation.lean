import SearchCriteria.Proofs.Sql.Scan
import SearchCriteria.Query.Shape
import SearchCriteria.Sql.Quotation

/-!
# Quotation in SQL conditions

The texts of a query reach its SQL condition as quoted parts and in no other way. Whatever
characters they hold, the scan finds them whole and in order, and what stands outside of the
quotes is told by the shape of the query.
-/

namespace SearchCriteria

open Sql Lexeme

namespace Sql.Lexeme

@[simp] theorem isQuoted_plain (c : Char) : (plain c).isQuoted = false := rfl

@[simp] theorem isQuoted_column (name : String) : (column name).isQuoted = true := rfl

@[simp] theorem isQuoted_literal (text : String) : (literal text).isQuoted = true := rfl

/-- No part of a word is quoted. -/
@[simp] theorem filter_spell (word : String) : (spell word).filter (·.isQuoted) = [] := by
  simp [spell]

/-- A word keeps its characters when quoted parts are emptied. -/
@[simp] theorem map_blank_spell (word : String) : (spell word).map blank = spell word := by
  simp [spell, blank]

end Sql.Lexeme

namespace Sql.Condition

/-- The quoted parts of a comparison. -/
theorem filter_lexemes_ofComparison (property text : String) (comparison : Comparison) :
    (ofComparison property text comparison).lexemes.filter (·.isQuoted) =
      Lexeme.ofComparison property text comparison := by
  cases comparison <;> simp [ofComparison, lexemes, Lexeme.ofComparison, List.filter_cons]

/-- The quoted parts of a condition are those of its query. -/
theorem filter_lexemes_ofQuery (query : Query) :
    (ofQuery query).lexemes.filter (·.isQuoted) = Lexeme.ofQuery query := by
  induction query with
  | allResults => rfl
  | relational property relation =>
    cases relation with
    | compare comparison text => exact filter_lexemes_ofComparison property text comparison
    | existence present =>
      simp [ofQuery, ofRelation, lexemes, Lexeme.ofQuery, Lexeme.ofRelation, List.filter_cons]
  | joined junction left right ihleft ihright =>
    simp only [ofQuery, lexemes, List.filter_append, filter_spell, ihleft, ihright, List.nil_append,
      List.append_nil, Lexeme.ofQuery]

/-- With the quoted parts emptied, a comparison keeps only its kind. -/
theorem map_blank_lexemes_ofComparison (property text : String) (comparison : Comparison) :
    (ofComparison property text comparison).lexemes.map blank =
      (ofComparison "" "" comparison).lexemes.map blank := by
  cases comparison <;> simp [ofComparison, lexemes, blank]

/-- With the quoted parts emptied, a condition is told by the shape of its query. -/
theorem map_blank_lexemes_ofQuery (query : Query) :
    (ofQuery query).lexemes.map blank = (ofQuery query.shape).lexemes.map blank := by
  induction query with
  | allResults => rfl
  | relational property relation =>
    cases relation with
    | compare comparison text => exact map_blank_lexemes_ofComparison property text comparison
    | existence present => simp [ofQuery, ofRelation, lexemes, Query.shape, blank]
  | joined junction left right ihleft ihright =>
    simp only [ofQuery, lexemes, Query.shape, List.map_append, map_blank_spell, ihleft, ihright]

end Sql.Condition

namespace Query

/-- The SQL condition of a query is scanned to the end and ends outside of quotes; its quoted
parts are the texts of the leaves in order; and without these it is the condition of every
query of the same shape. -/
theorem scan_sql (query : Query) :
    ∃ lexemes, scan query.sql = some lexemes ∧
      lexemes.filter (·.isQuoted) = Lexeme.ofQuery query ∧
      ∀ other : Query, other.shape = query.shape →
        (scan other.sql).map (·.map blank) = some (lexemes.map blank) := by
  refine ⟨_, Condition.scan_render _, Condition.filter_lexemes_ofQuery query, ?_⟩
  intro other hshape
  have hother := Condition.map_blank_lexemes_ofQuery other
  rw [sql, Condition.scan_render, Option.map_some, hother, hshape,
    ← Condition.map_blank_lexemes_ofQuery query]

/-- Two queries of one shape, whose texts are full of quotes. -/
theorem scan_sql_quotes :
    let query : Query := .joined .or (.relational "a\" OR \"b" (.compare .derivedFrom "'"))
      (.relational "" (.existence false))
    let other : Query := .joined .or (.relational "''" (.compare .derivedFrom "x') OR TRUE"))
      (.relational "\"" (.existence false))
    other.shape = query.shape ∧
      ∃ lexemes, scan query.sql = some lexemes ∧
        (scan other.sql).map (·.map blank) = some (lexemes.map blank) := by
  intro query other
  have hshape : other.shape = query.shape := rfl
  obtain ⟨lexemes, hscan, -, hblank⟩ := scan_sql query
  exact ⟨hshape, lexemes, hscan, hblank other hshape⟩

end Query

end SearchCriteria
