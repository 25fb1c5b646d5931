import SearchCriteria.Proofs.Reader.Move
import SearchCriteria.Query.Shape

/-!
# Consistent states

A clause has room for values that no text leads to, such as a text for `exists` or more
matched letters than a keyword has. What a state may hold is told here, and each move
keeps it, so no text leads a reader to any other state.
-/

namespace SearchCriteria

/-- Whether a query is a single relational expression. -/
def Query.IsExpression (query : Query) : Prop :=
  ∃ property relation, query = .relational property relation

/-- A relational expression is a single leaf. -/
theorem Query.IsExpression.leaves_eq {query : Query} (hquery : query.IsExpression) :
    query.leaves = 1 := by
  obtain ⟨property, relation, rfl⟩ := hquery
  rfl

/-- Whether an operator is written as a word and not with symbols. -/
def Operator.IsWord (operator : Operator) : Prop :=
  operator = .compare .contains ∨ operator = .compare .doesNotContain ∨
    operator = .compare .derivedFrom ∨ operator = .existence

namespace Reader

namespace Clause

/-- What a clause may hold. -/
def Consistent : Clause → Prop
  | afterSymbol _ operator =>
    operator = .compare .notEquals ∨ operator = .compare .lessThan ∨
      operator = .compare .greaterThan
  | inKeyword _ operator matched =>
    operator.IsWord ∧ 1 ≤ matched ∧ matched ≤ operator.keyword.toList.length
  | inText _ operator _ _ => operator ≠ .existence
  | inFlag _ value matched => 1 ≤ matched ∧ matched ≤ (flagLiteral value).toList.length
  | _ => True

/-- What the outcome of a character may hold. -/
def Outcome.Consistent : Outcome → Prop
  | more clause => clause.Consistent
  | closed operand => operand.IsExpression
  | ended operand => operand.IsExpression

/-- A letter can be matched only where the word has one. -/
theorem matched_of_getElem? {word : List Char} {matched : Nat} {c : Char}
    (hnext : word[matched]? = some c) : 1 ≤ matched + 1 ∧ matched + 1 ≤ word.length := by
  have hlt : matched < word.length := (List.getElem?_eq_some_iff.mp hnext).1
  constructor <;> omega

/-- Each move of a consistent clause has a consistent outcome. -/
theorem Consistent.moves {clause : Clause} {c : Char} {outcome : Outcome}
    (hconsistent : clause.Consistent) (hmoves : clause.Moves c outcome) :
    outcome.Consistent := by
  cases hmoves with
  | property => trivial
  | endProperty => trivial
  | idleOperator => trivial
  | equals => trivial
  | symbol hsymbol => exact hsymbol
  | word hword =>
    rcases hword with rfl | rfl
    · exact ⟨.inl rfl, by decide, by decide⟩
    · exact ⟨.inr (.inr (.inr rfl)), by decide, by decide⟩
  | letterD => trivial
  | symbolEquals => trivial
  | endSymbol => trivial
  | secondLetter hword =>
    rcases hword with rfl | rfl
    · exact ⟨.inr (.inr (.inl rfl)), by decide, by decide⟩
    · exact ⟨.inr (.inl rfl), by decide, by decide⟩
  | letter hnext => exact ⟨hconsistent.1, matched_of_getElem? hnext⟩
  | endKeyword => trivial
  | idleOperand => trivial
  | quote =>
    intro hexistence
    cases hexistence
  | @flag property value _ _ =>
    have hlength : 1 ≤ (flagLiteral value).toList.length := by
      cases value <;> decide
    exact ⟨Nat.le_refl 1, hlength⟩
  | backslash => exact hconsistent
  | escaped => exact hconsistent
  | plain => exact hconsistent
  | @unquote property comparison content => exact ⟨property, .compare comparison content, rfl⟩
  | flagLetter hnext => exact matched_of_getElem? hnext
  | @endFlag property value => exact ⟨property, .existence value, rfl⟩

/-- A clause that is complete at the end of the text is a relational expression. -/
theorem isExpression_of_finish {clause : Clause} {operand : Query}
    (hfinish : clause.finish = .ok operand) : operand.IsExpression := by
  obtain ⟨property, value, -, rfl⟩ := finish_eq_ok hfinish
  exact ⟨property, .existence value, rfl⟩

end Clause

variable {limits : Limits}

/-- What a state may hold: no more open parentheses than the limit admits, and words that
are matched no further than they go. -/
def State.Consistent (limits : Limits) : State → Prop
  | start depth => depth ≤ limits.maxNestingDepth
  | wildcard => True
  | inClause clause scope => clause.Consistent ∧ scope.depth ≤ limits.maxNestingDepth
  | afterOperand operand scope => operand.IsExpression ∧ scope.depth ≤ limits.maxNestingDepth
  | inJunction junction matched scope =>
    (1 ≤ matched ∧ matched ≤ junction.keyword.toList.length) ∧
      scope.depth ≤ limits.maxNestingDepth
  | afterJunction _ scope => scope.depth ≤ limits.maxNestingDepth

namespace State

/-- Where an expression may begin, no more parentheses are open than the limit admits. -/
theorem Consistent.awaits {state : State} {first : Bool} {scope : Scope}
    (hconsistent : state.Consistent limits) (hawaits : state.Awaits first scope) :
    scope.depth ≤ limits.maxNestingDepth := by
  cases hawaits with
  | start depth => exact hconsistent
  | afterJunction junction scope => exact hconsistent

/-- Each move behind an expression leads to a consistent state. -/
theorem consistent_of_moves_afterOperand {operand : Query} {scope : Scope} {c : Char}
    {next : State} (hoperand : operand.IsExpression)
    (hdepth : scope.depth ≤ limits.maxNestingDepth)
    (hmoves : Moves limits (.afterOperand operand scope) c next) : next.Consistent limits := by
  cases hmoves with
  | idle hawaits => cases hawaits
  | begin hawaits => cases hawaits
  | idleOperand => exact ⟨hoperand, hdepth⟩
  | close => exact ⟨hoperand, Nat.le_of_succ_le hdepth⟩
  | @junction junction =>
    have hlength : 1 ≤ junction.keyword.toList.length := by
      cases junction <;> decide
    exact ⟨⟨Nat.le_refl 1, hlength⟩, hdepth⟩

/-- Each move leads from a consistent state to a consistent one. -/
theorem Consistent.moves {state next : State} {c : Char}
    (hconsistent : state.Consistent limits) (hmoves : Moves limits state c next) :
    next.Consistent limits := by
  cases hmoves with
  | idle => exact hconsistent
  | wildcard => trivial
  | idleWildcard => trivial
  | openFirst hroom => exact hroom
  | openSide hroom => exact hroom
  | begin hawaits => exact ⟨trivial, hconsistent.awaits hawaits⟩
  | more hclause => exact ⟨hconsistent.1.moves hclause, hconsistent.2⟩
  | closed hclause => exact ⟨hconsistent.1.moves hclause, hconsistent.2⟩
  | ended hclause hmoves =>
    have hoperand := hconsistent.1.moves hclause
    exact consistent_of_moves_afterOperand hoperand hconsistent.2 hmoves
  | idleOperand => exact hconsistent
  | close => exact consistent_of_moves_afterOperand hconsistent.1 hconsistent.2 .close
  | junction hletter hroom =>
    exact consistent_of_moves_afterOperand hconsistent.1 hconsistent.2 (.junction hletter hroom)
  | letter hnext => exact ⟨Clause.matched_of_getElem? hnext, hconsistent.2⟩
  | endKeyword => exact hconsistent.2

/-- A clause that a character shows to have ended had been read to its last character. -/
theorem Consistent.ends_of_ended {clause : Clause} {scope : Scope} {operand : Query} {c : Char}
    (hconsistent : (inClause clause scope).Consistent limits)
    (hclause : clause.Moves c (.ended operand)) :
    (inClause clause scope).Ends false operand scope := by
  cases hclause with
  | @endFlag property value matched _ hmatched =>
    have hwhole : matched = (flagLiteral value).length := by
      have hle := hconsistent.1.2
      rw [String.length_toList] at hle hmatched
      omega
    rw [hwhole]
    exact .flag property value scope

/-- No text leads from the start to a state that is not consistent. -/
theorem consistent_of_run {text : List Char} {state : State}
    (hrun : (start 0).run limits text = .ok state) : state.Consistent limits := by
  have hstart : (start 0).Consistent limits := Nat.zero_le _
  exact run_invariant Consistent.moves hstart hrun

end State

end Reader

end SearchCriteria
