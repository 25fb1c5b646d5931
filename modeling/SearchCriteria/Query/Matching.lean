import SearchCriteria.Query
import SearchCriteria.Text.Occurrence

/-!
# What queries match

An item holds at most one text for each property. A comparison with a text fails
where the property is absent, whatever the comparison.
-/

namespace SearchCriteria

/-- The texts that an item holds for its properties. -/
abbrev Item := String → Option String

/-- Whether the content of a property compares with a text. -/
def Comparison.holds (content text : String) : Comparison → Bool
  | equals => content = text
  | notEquals => content ≠ text
  | lessThan => content < text
  | lessOrEqual => content ≤ text
  | greaterThan => text < content
  | greaterOrEqual => text ≤ content
  | contains => Text.occursIn text.toList content.toList
  | doesNotContain => !Text.occursIn text.toList content.toList
  | derivedFrom => content = text || (text.push '.').toList.isPrefixOf content.toList

/-- Whether a property with this content, or none, stands in the relation. -/
def Relation.holds (content? : Option String) : Relation → Bool
  | compare comparison text =>
    match content? with
    | some content => comparison.holds content text
    | none => false
  | existence present => content?.isSome = present

/-- Whether an item matches a query. -/
def Query.matches (item : Item) : Query → Bool
  | allResults => true
  | relational property relation => relation.holds (item property)
  | joined .and left right => left.matches item && right.matches item
  | joined .or left right => left.matches item || right.matches item

end SearchCriteria
