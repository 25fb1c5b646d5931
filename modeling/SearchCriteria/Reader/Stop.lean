import SearchCriteria.Grammar
import SearchCriteria.Reader

/-!
# Where reading stops

Reading stops behind the first character that is refused, or at the end of the text. Some causes
quote the text, and they quote it from there: what they carry has been read last, and a word that
they carry is as much of it as has been read.
-/

namespace SearchCriteria

/-- The words that are read letter by letter. -/
def keywords : List String :=
  ["contains", "doesNotContain", "derivedFrom", "exists", "and", "or"]

namespace Reader

/-- The keywords and symbols that may stand behind a state: operators behind a property, and
junctions behind an expression. -/
def State.words : State → List String
  | inClause (.beforeOperator _) _ => Operator.all.map Operator.keyword
  | inClause (.inFlag _ value matched) _ =>
    if matched = (flagLiteral value).length then [Junction.and, Junction.or].map Junction.keyword
    else []
  | afterOperand _ _ => [Junction.and, Junction.or].map Junction.keyword
  | _ => []

/-- Whether a text is read to its end. -/
def Takes (limits : Limits) (text : List Char) : Prop :=
  ∃ state, (State.start 0).run limits text = .ok state

/-- Whether some character of a text is refused. -/
def Stops (limits : Limits) (text : List Char) : Prop :=
  ∃ cause, (State.start 0).run limits text = .error cause

/-- `StopsBehind limits text part`: the part is the shortest one in front of the text in which a
character is refused, or there is no such part and it is the whole text. -/
structure StopsBehind (limits : Limits) (text part : List Char) : Prop where
  begins : part <+: text
  stops_or_whole : Stops limits part ∨ part = text
  shortest : ∀ shorter, shorter <+: part → shorter ≠ part → Takes limits shorter

/-- Whether a word stands behind a text like a property: nothing separates it, and it is at the
beginning, behind a separator or behind a parenthesis that opens. -/
def StandsAsProperty (before word : List Char) : Prop :=
  (word ≠ [] ∧ ∀ c ∈ word, isSeparator c = false) ∧
    (before = [] ∨ ∃ c, [c] <:+ before ∧ (isSeparator c = true ∨ c = '('))

end Reader

open Grammar Reader

/-- What a cause that quotes the text says of it. The `part` is what has been read of the text
when reading stops. -/
def ParseError.Quotes (limits : Limits) (text part : List Char) : ParseError → Prop
  | danglingProperty property =>
    ∃ before, part = before ++ property.toList ∧ StandsAsProperty before property.toList
  | missingOperator property =>
    ∃ before gap, part = before ++ property.toList ++ gap ∧ Gap gap ∧
      StandsAsProperty before property.toList
  | unexpectedOperator word =>
    (∃ keyword ∈ keywords, word ≠ "" ∧ word ≠ keyword ∧ word.toList <+: keyword.toList) ∧
      (Takes limits text ∧ word.toList <:+ part ∨
        Stops limits text ∧ ∃ c, isSeparator c = true ∧ word.toList ++ [c] <:+ part)
  | unexpectedOperatorBeginning fragment =>
    ∃ before place letters c, part = before ++ fragment.toList ∧
      (State.start 0).run limits before = .ok place ∧
      fragment.toList = letters ++ [c] ∧ isSeparator c = false ∧
      (∃ keyword ∈ keywords, keyword ∈ place.words ∧ letters <+: keyword.toList) ∧
      ∀ word ∈ place.words, ¬ fragment.toList <+: word.toList
  | incompleteOperator operator =>
    operator = .compare .notEquals ∧
      (Takes limits text ∧ ['!'] <:+ part ∨
        Stops limits text ∧ ∃ c, c ≠ '=' ∧ ['!', c] <:+ part)
  | missingWhitespace operator =>
    ∃ c, isSeparator c = false ∧ operator.keyword.toList ++ [c] <:+ part
  | missingOperand operator => ∃ gap, Blank gap ∧ operator.keyword.toList ++ gap <:+ part
  | expectedString operator =>
    ∃ gap c, Gap gap ∧ isSeparator c = false ∧ c ≠ '"' ∧
      operator.keyword.toList ++ gap ++ [c] <:+ part
  | unexpectedEscape character =>
    ['\\', character] <:+ part ∧ character ≠ '\\' ∧ character ≠ '"'
  | unterminatedString content =>
    ∃ before backslash property comparison scope,
      text = before ++ '"' :: (Text.escape content.toList ++ backslash) ∧
      (backslash = [] ∨ backslash = ['\\']) ∧
      (State.start 0).run limits before =
        .ok (.inClause (.beforeOperand property (.compare comparison) true) scope)
  | missingJunctionOperand junction =>
    ∃ gap, (∀ c ∈ gap, isSeparator c = true ∨ c = '(') ∧
      (Takes limits text ∧ junction.keyword.toList ++ gap <:+ part ∨
        Stops limits text ∧ junction.keyword.toList ++ gap ++ [')'] <:+ part)
  | _ => True

end SearchCriteria
