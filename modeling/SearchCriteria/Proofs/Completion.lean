import SearchCriteria.Proofs.Reader.Consistency
import SearchCriteria.Proofs.Reader.Expression

/-!
# Completing texts

A reader refuses a text at the first character behind which no text could be accepted:
from every consistent state some text leads to a query, without a further parenthesis to
open or a further expression to join. The texts here supply the shortest missing parts,
and they are put together from the end of an expression backwards.
-/

namespace SearchCriteria

open Grammar

namespace Reader

variable {limits : Limits}

/-- Some text leads from the state to a query within the limits. -/
def State.Completes (limits : Limits) (state : State) : Prop :=
  ∃ text query, (state.run limits text).bind finish = .ok query

namespace State

/-- A state completes if some text leads to one that does. -/
theorem Completes.of_run {state next : State} {text : List Char}
    (hcompletes : next.Completes limits) (hrun : state.run limits text = .ok next) :
    state.Completes limits := by
  obtain ⟨more, query, hmore⟩ := hcompletes
  refine ⟨text ++ more, query, ?_⟩
  rw [run_append_of_run hrun, hmore]

/-- A state completes if some character leads to one that does. -/
theorem Completes.of_step {state next : State} {c : Char} (hcompletes : next.Completes limits)
    (hstep : state.step limits c = .ok next) : state.Completes limits := by
  have hrun : state.run limits [c] = .ok next := by
    rw [run_cons_of_step hstep, run_nil]
  exact hcompletes.of_run hrun

/-- Behind an operand the missing parentheses can be closed. -/
theorem Ends.completes {state : State} {closed : Bool} {operand : Query} {chain : Chain}
    {depth : Nat} (hends : state.Ends closed operand ⟨chain, depth⟩) :
    state.Completes limits := by
  induction depth generalizing state closed with
  | zero => exact ⟨[], chain.complete operand, hends.finish⟩
  | succ depth ih =>
    have hnext := ih (Ends.closed operand ⟨chain, depth⟩)
    exact hnext.of_step hends.step_close

/-- Where an expression may begin, any expression can be supplied. -/
theorem Awaits.completes {state : State} {first : Bool} {scope : Scope}
    (hawaits : state.Awaits first scope) : state.Completes limits := by
  have hproperty : Property first "a".toList :=
    property_singleton rfl (by decide) (by decide) fun _ => by decide
  have hgap : Gap [' '] := gap_singleton rfl
  have hfits : (Outline.expression "a" [' '] (.compare .equals "") [' ']).Fits .term first :=
    ⟨hproperty, hgap, hgap⟩
  obtain ⟨next, hrun, hends⟩ := hawaits.run_expression limits hfits
  exact hends.completes.of_run hrun

end State

namespace Clause

variable {scope : Scope} {property : String}

/-- Every operator can be given an operand of its kind. -/
theorem completes_beforeOperand (operator : Operator) (spaced : Bool) :
    (State.inClause (beforeOperand property operator spaced) scope).Completes limits := by
  have hrelation : ∃ relation : Relation, relation.operator = operator := by
    cases operator with
    | compare comparison => exact ⟨.compare comparison "", rfl⟩
    | existence => exact ⟨.existence true, rfl⟩
  obtain ⟨relation, rfl⟩ := hrelation
  obtain ⟨next, hrun, hends⟩ := State.run_operand limits scope property relation
  have hspace : (State.inClause (beforeOperand property relation.operator spaced) scope).step
      limits ' ' = .ok (.inClause (.beforeOperand property relation.operator true) scope) := rfl
  exact (hends.completes.of_run hrun).of_step hspace

/-- Every property can be given an operator. -/
theorem completes_beforeOperator :
    (State.inClause (beforeOperator property) scope).Completes limits := by
  have hgap : Gap [' '] := gap_singleton rfl
  have hrun : (State.inClause (beforeOperator property) scope).run limits
      (Operator.existence.keyword.toList ++ [' ']) =
        .ok (.inClause (.beforeOperand property .existence true) scope) :=
    State.run_operator property .existence hgap
  exact (completes_beforeOperand .existence true).of_run hrun

/-- An exclamation mark can be continued with an equals sign, and any other symbol with a
separator. -/
theorem completes_afterSymbol (operator : Operator) :
    (State.inClause (afterSymbol property operator) scope).Completes limits := by
  by_cases hnotEquals : operator = .compare .notEquals
  · subst hnotEquals
    have hequal : (State.inClause (afterSymbol property (.compare .notEquals)) scope).step
        limits '=' = .ok (.inClause (.beforeOperand property (.compare .notEquals) false) scope) :=
      rfl
    exact (completes_beforeOperand (.compare .notEquals) false).of_step hequal
  · have hspace : (State.inClause (afterSymbol property operator) scope).step limits ' ' =
        .ok (.inClause (.beforeOperand property operator true) scope) := by
      rw [State.step, State.step_symbol_end property hnotEquals rfl]
    exact (completes_beforeOperand operator true).of_step hspace

/-- The rest of a keyword can be supplied. -/
theorem completes_inKeyword (operator : Operator) {matched : Nat}
    (hmatched : matched ≤ operator.keyword.toList.length) :
    (State.inClause (inKeyword property operator matched) scope).Completes limits := by
  have hrest : (State.inClause (inKeyword property operator matched) scope).run limits
      (operator.keyword.toList.drop matched) =
        .ok (.inClause (.inKeyword property operator operator.keyword.toList.length) scope) :=
    State.run_keyword property operator hmatched
  have hspace : (State.inClause (inKeyword property operator operator.keyword.toList.length)
      scope).step limits ' ' = .ok (.inClause (.beforeOperand property operator true) scope) := by
    rw [State.step, State.step_keyword_end property operator rfl]
  exact ((completes_beforeOperand operator true).of_step hspace).of_run hrest

/-- A text of a comparison can be closed, once an escape has its character. -/
theorem completes_inText (comparison : Comparison) (content : String) (escaped : Bool) :
    (State.inClause (inText property (.compare comparison) content escaped) scope).Completes
      limits := by
  have hclosed : ∀ content : String,
      (State.inClause (inText property (.compare comparison) content false) scope).Completes
        limits := by
    intro content
    have hquote : (State.inClause (inText property (.compare comparison) content false)
        scope).step limits '"' =
          .ok (.afterOperand (.relational property (.compare comparison content)) scope) := rfl
    exact (State.Ends.closed _ scope).completes.of_step hquote
  cases escaped with
  | false => exact hclosed content
  | true =>
    have hescape : (State.inClause (inText property (.compare comparison) content true)
        scope).step limits '"' =
          .ok (.inClause (.inText property (.compare comparison) (content.push '"') false)
            scope) := rfl
    exact (hclosed _).of_step hescape

/-- The rest of a truth value can be supplied. -/
theorem completes_inFlag (value : Bool) {matched : Nat}
    (hmatched : matched ≤ (flagLiteral value).toList.length) :
    (State.inClause (inFlag property value matched) scope).Completes limits := by
  have hrest : (State.inClause (inFlag property value matched) scope).run limits
      ((flagLiteral value).toList.drop matched) =
        .ok (.inClause (.inFlag property value (flagLiteral value).toList.length) scope) := by
    apply State.run_word (fun i => State.inClause (inFlag property value i) scope) hmatched
    intro i c hc
    simp [State.step, Clause.step, stepFlag, hc]
  rw [String.length_toList] at hrest
  exact (State.Ends.flag property value scope).completes.of_run hrest

/-- A consistent clause can be completed, and the parentheses around it closed. -/
theorem Consistent.completes {clause : Clause} (hconsistent : clause.Consistent) :
    (State.inClause clause scope).Completes limits := by
  cases clause with
  | inProperty token =>
    have hspace : (State.inClause (inProperty token) scope).step limits ' ' =
        .ok (.inClause (.beforeOperator token) scope) := rfl
    exact completes_beforeOperator.of_step hspace
  | beforeOperator property => exact completes_beforeOperator
  | afterSymbol property operator => exact completes_afterSymbol operator
  | afterD property =>
    have hletter : (State.inClause (afterD property) scope).step limits 'e' =
        .ok (.inClause (.inKeyword property (.compare .derivedFrom) 2) scope) := rfl
    have hmatched : 2 ≤ (Operator.compare .derivedFrom).keyword.toList.length := by decide
    exact (completes_inKeyword _ hmatched).of_step hletter
  | inKeyword property operator matched => exact completes_inKeyword operator hconsistent.2.2
  | beforeOperand property operator spaced => exact completes_beforeOperand operator spaced
  | inText property operator content escaped =>
    cases operator with
    | existence => exact absurd rfl hconsistent
    | compare comparison => exact completes_inText comparison content escaped
  | inFlag property value matched => exact completes_inFlag value hconsistent.2

end Clause

/-- A consistent state can be completed within the limits that it has been reached in. -/
theorem State.Consistent.completes {state : State} (hconsistent : state.Consistent limits) :
    state.Completes limits := by
  cases state with
  | start depth => exact (Awaits.start depth).completes
  | wildcard => exact ⟨[], .allResults, rfl⟩
  | inClause clause scope => exact hconsistent.1.completes
  | afterOperand operand scope => exact (Ends.closed operand scope).completes
  | inJunction junction matched scope =>
    have hmatched : matched ≤ junction.keyword.toList.length := hconsistent.1.2
    have hrest : (inJunction junction matched scope).run limits
        (junction.keyword.toList.drop matched) =
          .ok (.inJunction junction junction.keyword.toList.length scope) := by
      apply run_word (fun i => inJunction junction i scope) hmatched
      intro i c hc
      simp [step, stepKeyword, hc]
    have hspace : (inJunction junction junction.keyword.toList.length scope).step limits ' ' =
        .ok (.afterJunction junction scope) := by
      simp [step, stepKeyword, isSeparator, separators]
    have hawaits := Awaits.afterJunction junction scope
    exact (hawaits.completes.of_step hspace).of_run hrest
  | afterJunction junction scope => exact (Awaits.afterJunction junction scope).completes

/-- A reader takes exactly the texts that are the beginning of an accepted one. -/
theorem feed_eq_ok_iff_completes (limits : Limits) (text : String) :
    (∃ reader, (Reader.new limits).feed text = .ok reader) ↔
      ∃ more query, Query.parse limits (text ++ more) = .ok query := by
  have hfeed : (Reader.new limits).feed text =
      ((State.start 0).run limits text.toList).bind fun state => .ok ⟨limits, state⟩ := rfl
  rw [hfeed]
  constructor
  · rintro ⟨reader, hreader⟩
    obtain ⟨state, hrun, -⟩ := exists_of_bind_eq_ok hreader
    have hconsistent := State.consistent_of_run hrun
    obtain ⟨more, query, hmore⟩ := hconsistent.completes
    refine ⟨String.ofList more, query, ?_⟩
    rw [Query.parse_eq, String.toList_append, String.toList_ofList,
      State.run_append_of_run hrun, hmore]
  · rintro ⟨more, query, hparse⟩
    obtain ⟨last, hlast, -⟩ := Query.exists_run_of_parse hparse
    rw [String.toList_append, State.run_append] at hlast
    obtain ⟨state, hrun, -⟩ := exists_of_bind_eq_ok hlast
    refine ⟨⟨limits, state⟩, ?_⟩
    rw [hrun]
    rfl

end Reader

end SearchCriteria
