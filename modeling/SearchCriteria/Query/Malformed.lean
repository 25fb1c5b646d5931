import SearchCriteria.Query.Encoding

/-!
# Values that hold no query

What is wrong with a value is wrong with every value that it is a part of, if it stands where
a query is expected.
-/

namespace SearchCriteria.Value

/-- Values that hold no relation. -/
inductive MalformedRelation : Value → Prop where
  /-- A name without an operand. -/
  | name (text : String) : MalformedRelation (.string text)
  /-- No tag, or more than one. -/
  | tags {members : List (String × Value)} (hlength : members.length ≠ 1) :
      MalformedRelation (.object members)
  /-- Existence with a text. -/
  | existence (text : String) :
      MalformedRelation (.tagged Operator.existence.name (.string text))
  /-- A comparison with a truth value. -/
  | comparison (comparison : Comparison) (value : Bool) :
      MalformedRelation (.tagged comparison.name (.boolean value))

/-- Values that hold no query. -/
inductive Malformed : Value → Prop where
  /-- A name that is not the one of the wildcard. -/
  | name {text : String} (htext : text ≠ "all_results") : Malformed (.string text)
  /-- No tag, or more than one. -/
  | tags {members : List (String × Value)} (hlength : members.length ≠ 1) :
      Malformed (.object members)
  /-- A tag that names no kind of query. -/
  | tag {tag : String} (htag : tag ∉ ["all_results", "relational", "and", "or"])
      (content : Value) : Malformed (.tagged tag content)
  /-- A junction without sides, or with fewer or more than two. -/
  | sides (junction : Junction) {items : List Value} (hlength : items.length ≠ 2) :
      Malformed (.tagged junction.keyword (.array items))
  /-- A relational expression whose relation is none. -/
  | relation {members : List (String × Value)} {value : Value}
      (hmember : member? members "relation" = some value) (hvalue : value.MalformedRelation) :
      Malformed (.tagged "relational" (.object members))

/-- `part.IsPartOf whole`: the part stands in the whole where a query is expected. -/
inductive IsPartOf (part : Value) : Value → Prop where
  | self : IsPartOf part part
  | left (junction : Junction) {left : Value} (right : Value) (hleft : IsPartOf part left) :
      IsPartOf part (.tagged junction.keyword (.array [left, right]))
  | right (junction : Junction) (left : Value) {right : Value} (hright : IsPartOf part right) :
      IsPartOf part (.tagged junction.keyword (.array [left, right]))

end SearchCriteria.Value
