import SearchCriteria.Proofs.Grammar.Outline
import SearchCriteria.Proofs.Grammar.Word
import SearchCriteria.Proofs.Reader.ClauseMove

/-!
# The texts of clauses

What has been read of a relational expression can be told from the clause, but for the
choice of separators. Each character that a clause accepts keeps this, so a clause that
ends has read an expression of the grammar.
-/

namespace SearchCriteria.Reader.Clause

open Grammar

/-- The text is the property and the separators behind it. -/
def Named (first : Bool) (property : String) (text : List Char) : Prop :=
  ∃ gap, Property first property.toList ∧ Gap gap ∧ text = property.toList ++ gap

/-- `clause.Reads first text`: the text, which begins the first expression or a later
one, leads to the clause. -/
def Reads (first : Bool) (text : List Char) : Clause → Prop
  | inProperty token => Property first token.toList ∧ text = token.toList
  | beforeOperator property => Named first property text
  | afterSymbol property operator =>
    (operator = .compare .notEquals ∨ operator = .compare .lessThan ∨
        operator = .compare .greaterThan) ∧
      ∃ before, Named first property before ∧ text = before ++ operator.keyword.toList.take 1
  | afterD property => ∃ before, Named first property before ∧ text = before ++ ['d']
  | inKeyword property operator matched =>
    ∃ before, Named first property before ∧ text = before ++ operator.keyword.toList.take matched
  | beforeOperand property operator spaced =>
    ∃ before gap, Named first property before ∧ Blank gap ∧ (spaced = true → gap ≠ []) ∧
      text = before ++ operator.keyword.toList ++ gap
  | inText property operator content escaped =>
    ∃ before gap, Named first property before ∧ Gap gap ∧
      text = before ++ operator.keyword.toList ++ gap ++
        '"' :: (Text.escape content.toList ++ if escaped then ['\\'] else [])
  | inFlag property value matched =>
    ∃ before gap, Named first property before ∧ Gap gap ∧
      text = before ++ Operator.existence.keyword.toList ++ gap ++
        (flagLiteral value).toList.take matched

/-- The text is one expression for the query, and it is closed unless it ends with a
truth value. -/
def Expresses (first closed : Bool) (text : List Char) (query : Query) : Prop :=
  ∃ property gap relation gap', (Outline.expression property gap relation gap').Fits .term first ∧
    relation.closed = closed ∧ (Outline.expression property gap relation gap').text = text ∧
      query = .relational property relation

/-- What the outcome of a character says of the text before it and of the character. -/
def Outcome.Reads (first : Bool) (text : List Char) (c : Char) : Outcome → Prop
  | more clause => clause.Reads first (text ++ [c])
  | closed operand => Expresses first true (text ++ [c]) operand
  | ended operand => Expresses first false text operand ∧ c ≠ 'a' ∧ c ≠ 'o'

/-- A named property with an operator, separators and an operand of its kind is an
expression. -/
theorem Named.expresses {first : Bool} {property : String} {before gap : List Char}
    (hnamed : Named first property before) (hgap : Gap gap) (relation : Relation) :
    Expresses first relation.closed
      (before ++ relation.operator.keyword.toList ++ gap ++ relation.operand.print.toList)
      (.relational property relation) := by
  obtain ⟨gap', hproperty, hgap', rfl⟩ := hnamed
  exact ⟨property, gap', relation, gap, ⟨hproperty, hgap', hgap⟩, rfl, rfl, rfl⟩

/-- A character behind a text is escaped behind the escaped text. -/
theorem escape_push (content : String) (c : Char) :
    Text.escape (content.push c).toList =
      Text.escape content.toList ++ if Text.needsBackslash c then ['\\', c] else [c] := by
  rw [String.toList_push, Text.escape_append, Text.escape_cons, Text.escape_nil, List.append_nil]

/-- The character of each move is read as its outcome tells. -/
theorem Reads.moves {first : Bool} {text : List Char} {clause : Clause} {c : Char}
    {outcome : Outcome} (hreads : clause.Reads first text) (hmoves : clause.Moves c outcome) :
    outcome.Reads first text c := by
  cases hmoves with
  | @property token _ hc =>
    obtain ⟨hproperty, rfl⟩ := hreads
    have htoken : (token.push c).toList = token.toList ++ [c] := String.toList_push c
    have hpushed := hproperty.concat hc
    rw [← htoken] at hpushed
    exact ⟨hpushed, htoken.symm⟩
  | endProperty hc =>
    obtain ⟨hproperty, rfl⟩ := hreads
    exact ⟨[c], hproperty, gap_singleton hc, rfl⟩
  | idleOperator hc =>
    obtain ⟨gap, hproperty, hgap, rfl⟩ := hreads
    exact ⟨gap ++ [c], hproperty, hgap.2.gap_concat hc, List.append_assoc ..⟩
  | equals => exact ⟨text, [], hreads, blank_nil, by simp, (List.append_nil _).symm⟩
  | symbol hsymbol hletter => exact ⟨hsymbol, text, hreads, by rw [hletter]⟩
  | word hword hletter => exact ⟨text, hreads, by rw [hletter]⟩
  | letterD => exact ⟨text, hreads, rfl⟩
  | symbolEquals hwhole =>
    obtain ⟨hsymbol, before, hnamed, rfl⟩ := hreads
    refine ⟨before, [], hnamed, blank_nil, by simp, ?_⟩
    rw [List.append_assoc, List.append_nil]
    rcases hsymbol with rfl | rfl | rfl <;> obtain rfl := Option.some.inj hwhole <;> rfl
  | endSymbol hcomplete hc =>
    obtain ⟨hsymbol, before, hnamed, rfl⟩ := hreads
    refine ⟨before, [c], hnamed, (gap_singleton hc).2, by simp, ?_⟩
    rcases hsymbol with rfl | rfl | rfl
    · exact absurd rfl hcomplete
    · rfl
    · rfl
  | secondLetter hword hletters =>
    obtain ⟨before, hnamed, rfl⟩ := hreads
    refine ⟨before, hnamed, ?_⟩
    rw [hletters, List.append_assoc]
    rfl
  | letter hnext =>
    obtain ⟨before, hnamed, rfl⟩ := hreads
    exact ⟨before, hnamed, by rw [take_succ_of_getElem? hnext, List.append_assoc]⟩
  | endKeyword hmatched hc =>
    obtain ⟨before, hnamed, rfl⟩ := hreads
    refine ⟨before, [c], hnamed, (gap_singleton hc).2, by simp, ?_⟩
    rw [List.take_of_length_le hmatched]
  | idleOperand hc =>
    obtain ⟨before, gap, hnamed, hblank, -, rfl⟩ := hreads
    exact ⟨before, gap ++ [c], hnamed, (hblank.gap_concat hc).2, by simp, List.append_assoc ..⟩
  | quote =>
    obtain ⟨before, gap, hnamed, hblank, hspaced, rfl⟩ := hreads
    exact ⟨before, gap, hnamed, ⟨hspaced rfl, hblank⟩, rfl⟩
  | flag hletter =>
    obtain ⟨before, gap, hnamed, hblank, hspaced, rfl⟩ := hreads
    exact ⟨before, gap, hnamed, ⟨hspaced rfl, hblank⟩, by rw [hletter]⟩
  | backslash =>
    obtain ⟨before, gap, hnamed, hgap, rfl⟩ := hreads
    exact ⟨before, gap, hnamed, hgap, by simp⟩
  | escaped hc =>
    obtain ⟨before, gap, hnamed, hgap, rfl⟩ := hreads
    refine ⟨before, gap, hnamed, hgap, ?_⟩
    rw [escape_push, if_pos hc]
    simp
  | plain hc =>
    obtain ⟨before, gap, hnamed, hgap, rfl⟩ := hreads
    refine ⟨before, gap, hnamed, hgap, ?_⟩
    rw [escape_push, hc]
    simp
  | @unquote property comparison content =>
    obtain ⟨before, gap, hnamed, hgap, rfl⟩ := hreads
    have hexpresses := hnamed.expresses hgap (.compare comparison content)
    rw [Relation.closed, Relation.operator, Relation.operand, Operand.print,
      Text.toList_quote] at hexpresses
    simpa [Outcome.Reads] using hexpresses
  | flagLetter hnext =>
    obtain ⟨before, gap, hnamed, hgap, rfl⟩ := hreads
    refine ⟨before, gap, hnamed, hgap, ?_⟩
    rw [take_succ_of_getElem? hnext, List.append_assoc]
  | @endFlag property value matched _ hmatched hc =>
    obtain ⟨before, gap, hnamed, hgap, rfl⟩ := hreads
    rw [List.take_of_length_le hmatched]
    have hletter : ∀ d, isSeparator d = false → d ≠ '(' → d ≠ ')' → c ≠ d := by
      rintro d hd hopen hclose rfl
      rcases hc with hc | hc | hc
      · exact ne_of_isSeparator hc hd rfl
      · exact hopen hc
      · exact hclose hc
    exact ⟨hnamed.expresses hgap (.existence value), hletter 'a' rfl (by decide) (by decide),
      hletter 'o' rfl (by decide) (by decide)⟩

/-- A clause that is complete at the end of the text has read an expression. -/
theorem Reads.finish {first : Bool} {text : List Char} {clause : Clause} {operand : Query}
    (hreads : clause.Reads first text) (hfinish : clause.finish = .ok operand) :
    Expresses first false text operand := by
  obtain ⟨property, value, rfl, rfl⟩ := finish_eq_ok hfinish
  obtain ⟨before, gap, hnamed, hgap, rfl⟩ := hreads
  rw [List.take_length]
  exact hnamed.expresses hgap (.existence value)

end SearchCriteria.Reader.Clause
