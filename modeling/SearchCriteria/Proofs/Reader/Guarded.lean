import SearchCriteria.Proofs.Reader.Consistency
import SearchCriteria.Proofs.Reader.Growth
import SearchCriteria.Reader.Guarded

/-!
# Guarded operations always have results

In a consistent state every operation that is guarded has its result, and guarded reading goes
on as reading does. So no text leads a reader to where an operation would have none.
-/

namespace SearchCriteria

/-- Short of its last number a counter goes on as numbers do. -/
theorem counterAfter?_eq {count : Nat} (hroom : count + 1 < 2 ^ 64) :
    counterAfter? count = some (count + 1) := if_pos hroom

/-- A junction waits in the same way if it can be counted. -/
theorem Chain.push?_eq {chain : Chain} (hroom : chain.joined + 1 < 2 ^ 64) (operand : Query)
    (junction : Junction) (priority : Nat) :
    chain.push? operand junction priority = some (chain.push operand junction priority) := by
  rw [push?, counterAfter?_eq hroom]
  rfl

namespace Reader

/-- Within a keyword its letters can be compared. -/
theorem stepKeyword?_eq {keyword : List Char} {matched : Nat} (hmatched : matched ≤ keyword.length)
    (c : Char) : stepKeyword? keyword matched c = some (stepKeyword keyword matched c) := by
  by_cases hend : matched = keyword.length
  · have hnone : keyword[keyword.length]? = none := List.getElem?_eq_none (Nat.le_refl _)
    simp only [stepKeyword?, stepKeyword, hend, hnone, List.take_length, if_true]
  · have hlt : matched < keyword.length := by omega
    have hnext : keyword[matched]? = some keyword[matched] := List.getElem?_eq_getElem hlt
    have hrest : lettersBehind? keyword matched = some (keyword.drop matched) := if_pos hmatched
    have hpart : lettersBefore? keyword matched = some (keyword.take matched) := if_pos hmatched
    simp only [stepKeyword?, stepKeyword, if_neg hend, hrest, hpart, hnext, Option.bind_eq_bind,
      Option.bind_some, List.head?_drop, Option.some.injEq]
    by_cases hc : c = keyword[matched]
    · rw [if_pos hc, if_pos hc.symm]
      rfl
    · rw [if_neg hc, if_neg (Ne.symm hc)]
      split <;> rfl

/-- Within a keyword the letters that have been matched can be told. -/
theorem brokenKeyword?_eq {keyword : List Char} {matched : Nat}
    (hmatched : matched ≤ keyword.length) :
    brokenKeyword? keyword matched = some (brokenKeyword keyword matched) := by
  rw [brokenKeyword?, lettersBefore?, if_pos hmatched]
  rfl

namespace Clause

/-- A text that is not the operand of `exists` is taken by its operator. -/
theorem stepText?_eq {operator : Operator} (hoperator : operator ≠ .existence)
    (property content : String) (escaped : Bool) (c : Char) :
    stepText? property operator content escaped c =
      some (stepText property operator content escaped c) := by
  cases operator with
  | existence => exact absurd rfl hoperator
  | compare comparison =>
    unfold stepText?
    split
    case isTrue hquote =>
      obtain ⟨rfl, rfl⟩ := hquote
      rfl
    case isFalse => rfl

/-- Within a truth value its letters can be compared. -/
theorem stepFlag?_eq {value : Bool} {matched : Nat}
    (hmatched : matched ≤ (flagLiteral value).toList.length) (property : String) (c : Char) :
    stepFlag? property value matched c = some (stepFlag property value matched c) := by
  unfold stepFlag?
  split
  case isTrue => rfl
  case isFalse hend =>
    rw [← String.length_toList] at hend
    have hlt : matched < (flagLiteral value).toList.length := by omega
    have hnext := List.getElem?_eq_getElem hlt
    rw [lettersBehind?, if_pos hmatched, Option.map_some, List.head?_drop, stepFlag]
    simp only [hnext, Option.some.injEq, eq_comm]

variable {clause : Clause}

/-- Each guarded operation of a consistent clause has its result. -/
theorem Consistent.step?_eq (hconsistent : clause.Consistent) (c : Char) :
    clause.step? c = some (clause.step c) := by
  cases clause with
  | inKeyword property operator matched =>
    rw [step?, step, stepKeyword?_eq hconsistent.2.2]
    rcases stepKeyword operator.keyword.toList matched c with _ | _ | _ <;> rfl
  | inText property operator content escaped =>
    exact stepText?_eq hconsistent property content escaped c
  | inFlag property value matched => exact stepFlag?_eq hconsistent.2 property c
  | _ => rfl

/-- At the end of the text each guarded operation of a consistent clause has its result. -/
theorem Consistent.finish?_eq (hconsistent : clause.Consistent) :
    clause.finish? = some clause.finish := by
  cases clause with
  | inKeyword property operator matched =>
    rw [finish?, finish, brokenKeyword?_eq hconsistent.2.2, Option.map_some]
    split <;> rfl
  | _ => rfl

end Clause

variable {limits : Limits}

/-- A junction begins in the same way if it can be counted. -/
theorem beginJunction?_eq {scope : Scope} (hroom : scope.chain.joined + 1 < 2 ^ 64)
    (junction : Junction) (operand : Query) :
    beginJunction? limits junction operand scope =
      some (beginJunction limits junction operand scope) := by
  unfold beginJunction? beginJunction
  split
  case isTrue => rfl
  case isFalse => rw [Chain.push?_eq hroom, Option.map_some]

/-- Behind an expression each guarded operation has its result, if one more junction can be
counted. -/
theorem stepAfterOperand?_eq {scope : Scope} (hroom : scope.chain.joined + 1 < 2 ^ 64)
    (operand : Query) (c : Char) :
    stepAfterOperand? limits operand scope c =
      some (stepAfterOperand limits operand scope c) := by
  unfold stepAfterOperand? stepAfterOperand
  split
  case isTrue => rfl
  case isFalse =>
    split
    case isTrue =>
      split
      case isTrue => rfl
      case isFalse hdepth =>
        have hbefore : scope.depth.ppred = some (scope.depth - 1) :=
          Nat.ppred_eq_some.mpr (Nat.succ_pred hdepth)
        rw [hbefore, Option.map_some]
    case isFalse =>
      rw [beginJunction?_eq hroom, beginJunction?_eq hroom]
      split_ifs <;> rfl

namespace State

variable {state : State}

/-- Each guarded operation of a consistent state has its result, if one more junction can be
counted. -/
theorem Consistent.step?_eq (hconsistent : state.Consistent limits)
    (hroom : state.joined + 1 < 2 ^ 64) (c : Char) :
    state.step? limits c = some (state.step limits c) := by
  cases state with
  | inClause clause scope =>
    have hclause : clause.step? c = some (clause.step c) := hconsistent.1.step?_eq c
    have hbehind : ∀ operand, stepAfterOperand? limits operand scope c =
        some (stepAfterOperand limits operand scope c) :=
      fun operand => stepAfterOperand?_eq hroom operand c
    rw [step?, step, hclause, Option.bind_some]
    rcases clause.step c with cause | clause | operand | operand
    · rfl
    · rfl
    · rfl
    · exact hbehind operand
  | afterOperand operand scope => exact stepAfterOperand?_eq hroom operand c
  | inJunction junction matched scope =>
    rw [step?, step, stepKeyword?_eq hconsistent.1.2]
    rcases stepKeyword junction.keyword.toList matched c with _ | _ | _ <;> rfl
  | _ => rfl

/-- At the end of the text each guarded operation of a consistent state has its result. -/
theorem Consistent.finish?_eq (hconsistent : state.Consistent limits) :
    state.finish? = some state.finish := by
  cases state with
  | inClause clause scope =>
    rw [finish?, finish, hconsistent.1.finish?_eq, Option.map_some]
  | inJunction junction matched scope =>
    rw [finish?, finish, brokenKeyword?_eq hconsistent.1.2, Option.map_some]
    split <;> rfl
  | _ => rfl

/-- Behind a text that is short enough one more junction can be counted. -/
theorem joined_succ_lt_of_run {text : List Char} {state : State} (hlength : text.length < 2 ^ 62)
    (hrun : (start 0).run limits text = .ok state) : state.joined + 1 < 2 ^ 64 := by
  have hgrowth := depth_add_joined_le hrun
  omega

end State

/-- Every text that a reader takes leads to a consistent state. There each guarded operation has
its result, for every further character and for the end of the text. -/
theorem consistent_of_feed {text : String} {reader : Reader} (hlength : text.length < 2 ^ 62)
    (hfeed : (Reader.new limits).feed text = .ok reader) :
    reader.state.Consistent limits ∧
      (∀ c, reader.state.step? limits c = some (reader.state.step limits c)) ∧
      reader.state.finish? = some reader.state.finish := by
  obtain ⟨state, hrun, hreader⟩ := exists_of_bind_eq_ok hfeed
  obtain rfl := Except.ok.inj hreader
  rw [← String.length_toList] at hlength
  have hconsistent := State.consistent_of_run hrun
  have hroom := State.joined_succ_lt_of_run hlength hrun
  exact ⟨hconsistent, fun c => hconsistent.step?_eq hroom c, hconsistent.finish?_eq⟩

/-- Behind a whole truth value a parenthesis is closed, and no letter is compared any more. -/
theorem consistent_of_feed_flag :
    "(a exists true".length < 2 ^ 62 ∧
      ∃ reader, (Reader.new ⟨1, 1⟩).feed "(a exists true" = .ok reader ∧
        reader.state.Consistent ⟨1, 1⟩ ∧
        reader.state.step? ⟨1, 1⟩ ')' =
          some (.ok (.afterOperand (.relational "a" (.existence true)) ⟨Chain.empty, 0⟩)) ∧
        reader.state.finish? = some (.error (.unbalancedParentheses 1)) := by
  have hlength : "(a exists true".length < 2 ^ 62 := by decide
  have hfeed : (Reader.new ⟨1, 1⟩).feed "(a exists true" =
      .ok ⟨⟨1, 1⟩, .inClause (.inFlag "a" true 4) ⟨Chain.empty, 1⟩⟩ := rfl
  obtain ⟨hconsistent, hstep, hfinish⟩ := consistent_of_feed hlength hfeed
  exact ⟨hlength, _, hfeed, hconsistent, hstep ')', hfinish⟩

end Reader

end SearchCriteria
