import SearchCriteria.Proofs.Grammar.Level
import SearchCriteria.Query.Shape

/-!
# Outlines of phrases

An outline keeps of a phrase all that its text shows: where the expressions and the
groups are, and which separators stand between them. The text, the query and the
nesting are functions of the outline, and the phrases of the grammar are exactly the
texts of the outlines that fit.
-/

namespace SearchCriteria

/-- Whether a keyword may touch the operand of the relation. A quote ends a text, but
only what stands behind a truth value ends it. -/
def Relation.closed : Relation → Bool
  | compare .. => true
  | existence _ => false

namespace Grammar

/-- A phrase taken apart. -/
inductive Outline where
  /-- A relational expression, with the separators around its operator. -/
  | expression (property : String) (gap : List Char) (relation : Relation) (gap' : List Char)
  /-- A phrase in parentheses, with the separators inside of them. -/
  | group (blank : List Char) (inner : Outline) (blank' : List Char)
  /-- Two phrases with a junction between them, and the separators around it. -/
  | joined (junction : Junction) (left : Outline) (blank gap : List Char) (right : Outline)

namespace Outline

/-- The text of the phrase. -/
def text : Outline → List Char
  | expression property gap relation gap' =>
    property.toList ++ gap ++ relation.operator.keyword.toList ++ gap' ++
      relation.operand.print.toList
  | group blank inner blank' => '(' :: (blank ++ inner.text ++ blank' ++ [')'])
  | joined junction left blank gap right =>
    left.text ++ blank ++ junction.keyword.toList ++ gap ++ right.text

/-- The query that the phrase tells. -/
def query : Outline → Query
  | expression property _ relation _ => .relational property relation
  | group _ inner _ => inner.query
  | joined junction left _ _ right => .joined junction left.query right.query

/-- Whether a keyword may touch the end of the phrase. -/
def closed : Outline → Bool
  | expression _ _ relation _ => relation.closed
  | group .. => true
  | joined _ _ _ _ right => right.closed

/-- The most parentheses open at once within the phrase. -/
def depth : Outline → Nat
  | expression .. => 0
  | group _ inner _ => inner.depth + 1
  | joined _ left _ _ right => max left.depth right.depth

/-- The pairs of parentheses that enclose expressions. -/
def groups : Outline → Nat
  | expression .. => 0
  | group _ inner _ => inner.groups + 1
  | joined _ left _ _ right => left.groups + right.groups

/-- The text of the phrase without the separators that stand outside of quotes. -/
def condensed : Outline → List Char
  | expression property _ relation _ =>
    property.toList ++ relation.operator.keyword.toList ++ relation.operand.print.toList
  | group _ inner _ => '(' :: (inner.condensed ++ [')'])
  | joined junction left _ _ right =>
    left.condensed ++ junction.keyword.toList ++ right.condensed

/-- Whether the outline is one of a phrase of this level, which is the `first` of its
text if no junction stands before it. -/
def Fits : Level → Bool → Outline → Prop
  | _, first, expression property gap _ gap' =>
    Property first property.toList ∧ Gap gap ∧ Gap gap'
  | _, first, group blank inner blank' =>
    Blank blank ∧ inner.Fits .disjunction first ∧ Blank blank'
  | level, first, joined junction left blank gap right =>
    level.admits junction = true ∧ left.Fits (.ofJunction junction) first ∧ Blank blank ∧
      (left.closed = false → blank ≠ []) ∧ Gap gap ∧ right.Fits (.rightOf junction) false

/-- The whole text is the phrase, but for separators around it. -/
def Spans (outline : Outline) (text : List Char) : Prop :=
  outline.Fits .disjunction true ∧
    ∃ blank blank', Blank blank ∧ Blank blank' ∧ text = blank ++ outline.text ++ blank'

/-- A phrase is also one of each level with a lower floor. -/
theorem Fits.of_floor_le {outline : Outline} {level wider : Level} {first : Bool} {depth : Nat}
    (hfits : outline.Fits level first) (hle : wider.floor depth ≤ level.floor depth) :
    outline.Fits wider first := by
  cases outline with
  | expression => exact hfits
  | group => exact hfits
  | joined junction left blank gap right =>
    obtain ⟨hadmits, hsides⟩ := hfits
    exact ⟨Level.admits_of_floor_le hle hadmits, hsides⟩

/-- A term is a phrase of every level. -/
theorem Fits.of_term {outline : Outline} {first : Bool} (hfits : outline.Fits .term first)
    (level : Level) : outline.Fits level first :=
  hfits.of_floor_le (level.floor_le_term 0)

/-- A phrase of any level is a disjunction. -/
theorem Fits.disjunction {outline : Outline} {level : Level} {first : Bool}
    (hfits : outline.Fits level first) : outline.Fits .disjunction first :=
  hfits.of_floor_le (level.disjunction_floor_le 0)

/-- Each parenthesis open at once has its own character in the text. -/
theorem depth_le_length (outline : Outline) : outline.depth ≤ outline.text.length := by
  induction outline with
  | expression => exact Nat.zero_le _
  | group blank inner blank' ih =>
    simp only [depth, text, List.length_cons, List.length_append]
    omega
  | joined junction left blank gap right ihleft ihright =>
    simp only [depth, text, List.length_append]
    omega

/-- No operator is written with no character. -/
theorem keyword_length_pos (operator : Operator) : 0 < operator.keyword.toList.length := by
  cases operator with
  | existence => decide
  | compare comparison => cases comparison <;> decide

/-- Each expression has a character of its own in the text. -/
theorem leaves_le_length (outline : Outline) : outline.query.leaves ≤ outline.text.length := by
  induction outline with
  | expression property gap relation gap' =>
    have hkeyword := keyword_length_pos relation.operator
    simp only [query, Query.leaves, text, List.length_append]
    omega
  | group blank inner blank' ih =>
    simp only [query, text, List.length_cons, List.length_append]
    omega
  | joined junction left blank gap right ihleft ihright =>
    simp only [query, Query.leaves, text, List.length_append]
    omega

/-- A text has at least as many characters as it has parentheses open at once. -/
theorem Spans.depth_le_length {outline : Outline} {text : List Char} (hspans : outline.Spans text) :
    outline.depth ≤ text.length := by
  obtain ⟨-, blank, blank', -, -, rfl⟩ := hspans
  have hdepth := outline.depth_le_length
  simp only [List.length_append]
  omega

/-- A text has at least as many characters as it has expressions. -/
theorem Spans.leaves_le_length {outline : Outline} {text : List Char}
    (hspans : outline.Spans text) : outline.query.leaves ≤ text.length := by
  obtain ⟨-, blank, blank', -, -, rfl⟩ := hspans
  have hleaves := outline.leaves_le_length
  simp only [List.length_append]
  omega

end Outline

/-- A term of the grammar is a phrase of every level. -/
theorem Phrase.of_term {first closed : Bool} {text : List Char} {query : Query}
    (hterm : Phrase .term first closed text query) (level : Level) :
    Phrase level first closed text query := by
  cases level with
  | term => exact hterm
  | conjunction => exact .term hterm
  | disjunction => exact .conjunction (.term hterm)

/-- The text of an outline that fits is a phrase for its query. -/
theorem Outline.Fits.phrase {outline : Outline} {level : Level} {first : Bool}
    (hfits : outline.Fits level first) :
    Phrase level first outline.closed outline.text outline.query := by
  induction outline generalizing level first with
  | expression property gap relation gap' =>
    obtain ⟨hproperty, hgap, hgap'⟩ := hfits
    apply Phrase.of_term
    have hspelled : Phrase .term first (expression property gap relation gap').closed
        (expression property gap relation gap').text
        (.relational (String.ofList property.toList) relation) := by
      cases relation with
      | compare comparison value => exact .compare hproperty hgap hgap'
      | existence present => exact .existence hproperty hgap hgap'
    rwa [String.ofList_toList] at hspelled
  | group blank inner blank' ih =>
    obtain ⟨hblank, hinner, hblank'⟩ := hfits
    exact (Phrase.group hblank (ih hinner) hblank').of_term level
  | joined junction left blank gap right ihleft ihright =>
    obtain ⟨hadmits, hleft, hblank, hclosed, hgap, hright⟩ := hfits
    cases junction with
    | or =>
      cases level with
      | disjunction => exact .or (ihleft hleft) hblank hclosed hgap (ihright hright)
      | _ => simp [Level.admits] at hadmits
    | and =>
      have hand := Phrase.and (ihleft hleft) hblank hclosed hgap (ihright hright)
      cases level with
      | term => simp [Level.admits] at hadmits
      | conjunction => exact hand
      | disjunction => exact .conjunction hand

/-- A phrase of the grammar has an outline that fits. -/
theorem Phrase.exists_outline {level : Level} {first closed : Bool} {text : List Char}
    {query : Query} (hphrase : Phrase level first closed text query) :
    ∃ outline : Outline, outline.Fits level first ∧ outline.closed = closed ∧
      outline.text = text ∧ outline.query = query := by
  induction hphrase with
  | @compare first property gap gap' comparison value hproperty hgap hgap' =>
    refine ⟨.expression (String.ofList property) gap (.compare comparison value) gap', ?_⟩
    rw [Outline.Fits, Outline.text, String.toList_ofList]
    exact ⟨⟨hproperty, hgap, hgap'⟩, rfl, rfl, rfl⟩
  | @existence first property gap gap' present hproperty hgap hgap' =>
    refine ⟨.expression (String.ofList property) gap (.existence present) gap', ?_⟩
    rw [Outline.Fits, Outline.text, String.toList_ofList]
    exact ⟨⟨hproperty, hgap, hgap'⟩, rfl, rfl, rfl⟩
  | @group first closed text blank blank' query hblank _ hblank' ih =>
    obtain ⟨inner, hinner, -, rfl, rfl⟩ := ih
    exact ⟨.group blank inner blank', ⟨hblank, hinner, hblank'⟩, rfl, rfl, rfl⟩
  | term _ ih =>
    obtain ⟨outline, hfits, htold⟩ := ih
    exact ⟨outline, hfits.of_term .conjunction, htold⟩
  | conjunction _ ih =>
    obtain ⟨outline, hfits, htold⟩ := ih
    exact ⟨outline, hfits.disjunction, htold⟩
  | @and first closed closed' left right blank gap p q _ hblank hclosed hgap _ ihleft ihright =>
    obtain ⟨left, hleft, rfl, rfl, rfl⟩ := ihleft
    obtain ⟨right, hright, rfl, rfl, rfl⟩ := ihright
    exact ⟨.joined .and left blank gap right, ⟨rfl, hleft, hblank, hclosed, hgap, hright⟩,
      rfl, rfl, rfl⟩
  | @or first closed closed' left right blank gap p q _ hblank hclosed hgap _ ihleft ihright =>
    obtain ⟨left, hleft, rfl, rfl, rfl⟩ := ihleft
    obtain ⟨right, hright, rfl, rfl, rfl⟩ := ihright
    exact ⟨.joined .or left blank gap right, ⟨rfl, hleft, hblank, hclosed, hgap, hright⟩,
      rfl, rfl, rfl⟩

/-- The whole text is the wildcard, but for separators around it. -/
def Wildcard (text : List Char) : Prop :=
  ∃ blank blank', Blank blank ∧ Blank blank' ∧ text = blank ++ '*' :: blank'

/-- A text tells the query of the wildcard or of an outline that spans it. -/
theorem tells_iff {text : List Char} {query : Query} :
    Tells text query ↔
      (query = .allResults ∧ Wildcard text) ∨
        ∃ outline : Outline, outline.Spans text ∧ outline.query = query := by
  constructor
  · intro htells
    cases htells with
    | allResults hblank hblank' => exact .inl ⟨rfl, _, _, hblank, hblank', rfl⟩
    | expression hblank htext hblank' =>
      obtain ⟨outline, hfits, -, rfl, rfl⟩ := htext.exists_outline
      exact .inr ⟨outline, ⟨hfits, _, _, hblank, hblank', rfl⟩, rfl⟩
  · rintro (⟨rfl, blank, blank', hblank, hblank', rfl⟩ |
      ⟨outline, ⟨hfits, blank, blank', hblank, hblank', rfl⟩, rfl⟩)
    · exact .allResults hblank hblank'
    · exact .expression hblank hfits.phrase hblank'

end Grammar

end SearchCriteria
