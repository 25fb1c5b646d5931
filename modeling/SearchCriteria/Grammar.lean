import SearchCriteria.Query
import SearchCriteria.Text.Separator

/-!
# The grammar of criteria texts

Which texts tell which queries, as rules and without a reader. The junction `and`
binds tighter than `or`, and both group to the left.
-/

namespace SearchCriteria.Grammar

/-- A run of separators, which may be empty. -/
def Blank (text : List Char) : Prop := ∀ c ∈ text, isSeparator c = true

/-- A run of separators with at least one of them. -/
def Gap (text : List Char) : Prop := text ≠ [] ∧ Blank text

/-- A property: a word that does not begin with a parenthesis. The first property of
a query does not begin with the wildcard either. -/
structure Property (first : Bool) (text : List Char) : Prop where
  nonempty : text ≠ []
  no_separator : ∀ c ∈ text, isSeparator c = false
  no_open : text.head? ≠ some '('
  no_close : text.head? ≠ some ')'
  no_wildcard : first = true → text.head? ≠ some '*'

/-- What a phrase may consist of: a single expression or group, such ones with `and`
between them, or such ones with `or` between them. -/
inductive Level where
  | term
  | conjunction
  | disjunction

/-- `Phrase level first closed text query`: the text is a phrase of this level for the
query. It is the `first` of its text if no junction stands before it, and it is
`closed` unless it ends with a truth value, which no keyword may touch. -/
inductive Phrase : Level → Bool → Bool → List Char → Query → Prop where
  /-- A property, a comparison and a text in double quotes. -/
  | compare {first : Bool} {property gap gap' : List Char} {comparison : Comparison}
      {value : String} (hproperty : Property first property) (hgap : Gap gap)
      (hgap' : Gap gap') :
      Phrase .term first true
        (property ++ gap ++ comparison.keyword.toList ++ gap' ++ (Text.quote value).toList)
        (.relational (String.ofList property) (.compare comparison value))
  /-- A property, `exists` and a truth value. -/
  | existence {first : Bool} {property gap gap' : List Char} {present : Bool}
      (hproperty : Property first property) (hgap : Gap gap) (hgap' : Gap gap') :
      Phrase .term first false
        (property ++ gap ++ Operator.existence.keyword.toList ++ gap' ++
          (flagLiteral present).toList)
        (.relational (String.ofList property) (.existence present))
  /-- A disjunction in parentheses. -/
  | group {first closed : Bool} {text blank blank' : List Char} {query : Query}
      (hblank : Blank blank) (htext : Phrase .disjunction first closed text query)
      (hblank' : Blank blank') :
      Phrase .term first true ('(' :: (blank ++ text ++ blank' ++ [')'])) query
  /-- A term alone. -/
  | term {first closed : Bool} {text : List Char} {query : Query}
      (htext : Phrase .term first closed text query) :
      Phrase .conjunction first closed text query
  /-- A conjunction, `and` and a term. -/
  | and {first closed closed' : Bool} {left right blank gap : List Char} {p q : Query}
      (hleft : Phrase .conjunction first closed left p) (hblank : Blank blank)
      (hclosed : closed = false → blank ≠ []) (hgap : Gap gap)
      (hright : Phrase .term false closed' right q) :
      Phrase .conjunction first closed'
        (left ++ blank ++ Junction.and.keyword.toList ++ gap ++ right) (.joined .and p q)
  /-- A conjunction alone. -/
  | conjunction {first closed : Bool} {text : List Char} {query : Query}
      (htext : Phrase .conjunction first closed text query) :
      Phrase .disjunction first closed text query
  /-- A disjunction, `or` and a conjunction. -/
  | or {first closed closed' : Bool} {left right blank gap : List Char} {p q : Query}
      (hleft : Phrase .disjunction first closed left p) (hblank : Blank blank)
      (hclosed : closed = false → blank ≠ []) (hgap : Gap gap)
      (hright : Phrase .conjunction false closed' right q) :
      Phrase .disjunction first closed'
        (left ++ blank ++ Junction.or.keyword.toList ++ gap ++ right) (.joined .or p q)

/-- The texts that tell a query: the wildcard alone, or a disjunction, with separators
around it. -/
inductive Tells : List Char → Query → Prop where
  | allResults {blank blank' : List Char} (hblank : Blank blank) (hblank' : Blank blank') :
      Tells (blank ++ '*' :: blank') .allResults
  | expression {closed : Bool} {blank text blank' : List Char} {query : Query}
      (hblank : Blank blank) (htext : Phrase .disjunction true closed text query)
      (hblank' : Blank blank') :
      Tells (blank ++ text ++ blank') query

end SearchCriteria.Grammar
