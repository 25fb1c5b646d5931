import SearchCriteria.Relation

/-!
# Queries

A query is a tree: its leaves are relational expressions, or the wildcard that
every item matches, and its inner nodes join two queries by a junction.
-/

namespace SearchCriteria

/-- How two queries are joined. -/
inductive Junction where
  /-- Both sides must match. -/
  | and
  /-- Either side may match. -/
  | or
  deriving DecidableEq

/-- The junction as it is written in a criteria text. -/
def Junction.keyword : Junction → String
  | and => "and"
  | or => "or"

/-- The junction as a noun, for messages. -/
def Junction.noun : Junction → String
  | and => "conjunction"
  | or => "disjunction"

/-- A predicate on the items of a catalogue. -/
inductive Query where
  /-- Every item matches. -/
  | allResults
  /-- The item's property stands in the relation. -/
  | relational (property : String) (relation : Relation)
  /-- The two sides, joined. -/
  | joined (junction : Junction) (left right : Query)
  deriving DecidableEq

namespace Query

/-- Whether a query is the wildcard. -/
def isMatchAll : Query → Bool
  | allResults => true
  | _ => false

/-- The junction at the root, if there is one. -/
def junction? : Query → Option Junction
  | joined junction _ _ => some junction
  | _ => none

end Query

end SearchCriteria
