import SearchCriteria.Proofs.Reader.ClauseRefusal
import SearchCriteria.Proofs.Reader.Move

/-!
# What a reader refuses

A text is refused at the first of its characters that the state before it does not accept. The
refusals of a single character are listed here, each with its state and its cause.
-/

namespace SearchCriteria.Reader.State

open Grammar

/-- `Refuses limits state c cause`: within the limits the state does not accept the character,
for the cause. -/
inductive Refuses (limits : Limits) : State → Char → ParseError → Prop where
  /-- The wildcard stands in parentheses. -/
  | wildcardInGroup {depth : Nat} (hdepth : 0 < depth) :
      Refuses limits (.start depth) '*' .wildcardNotAlone
  /-- There is no room for a parenthesis before the first expression. -/
  | openFirst {depth : Nat} (hfull : limits.maxNestingDepth ≤ depth) :
      Refuses limits (.start depth) '(' (.nestingTooDeep limits.maxNestingDepth)
  /-- A parenthesis closes before any has been opened. -/
  | closeFirst : Refuses limits (.start 0) ')' (.unbalancedParentheses (-1))
  /-- A pair of parentheses encloses nothing. -/
  | emptyGroup {depth : Nat} (hdepth : 0 < depth) :
      Refuses limits (.start depth) ')' .emptyExpression
  /-- Something stands behind the wildcard. -/
  | besideWildcard {c : Char} (hc : isSeparator c = false) :
      Refuses limits .wildcard c .wildcardNotAlone
  /-- The expression does not go on. -/
  | clause {clause : Clause} {scope : Scope} {c : Char} {cause : ParseError}
      (hclause : clause.Refuses c cause) : Refuses limits (.inClause clause scope) c cause
  /-- The expression has ended, and the character is refused behind it. -/
  | ended {clause : Clause} {operand : Query} {scope : Scope} {c : Char} {cause : ParseError}
      (hclause : clause.Moves c (.ended operand))
      (hrefuses : Refuses limits (.afterOperand operand scope) c cause) :
      Refuses limits (.inClause clause scope) c cause
  /-- A parenthesis closes where none is open. -/
  | close {operand : Query} {chain : Chain} :
      Refuses limits (.afterOperand operand ⟨chain, 0⟩) ')' (.unbalancedParentheses (-1))
  /-- There is no room for the right side of a junction. -/
  | junction {junction : Junction} {operand : Query} {scope : Scope} {c : Char}
      (hletter : junction.keyword.toList.take 1 = [c])
      (hfull : limits.maxTerms < scope.chain.joined + 2) :
      Refuses limits (.afterOperand operand scope) c (.tooManyTerms limits.maxTerms)
  /-- No junction begins with the character. -/
  | noJunction {operand : Query} {scope : Scope} {c : Char} (hc : isSeparator c = false)
      (hletter : c ∉ [')', 'a', 'o']) :
      Refuses limits (.afterOperand operand scope) c
        (.unexpectedOperatorBeginning (String.singleton c))
  /-- The keyword of a junction is broken. -/
  | keyword {junction : Junction} {matched : Nat} {scope : Scope} {c : Char} {cause : ParseError}
      (hbreaks : BreaksKeyword junction.keyword.toList matched c cause) :
      Refuses limits (.inJunction junction matched scope) c cause
  /-- There is no room for a parenthesis behind a junction. -/
  | openSide {junction : Junction} {scope : Scope}
      (hfull : limits.maxNestingDepth ≤ scope.depth) :
      Refuses limits (.afterJunction junction scope) '(' (.nestingTooDeep limits.maxNestingDepth)
  /-- A group ends behind a junction. -/
  | missingSide {junction : Junction} {scope : Scope} :
      Refuses limits (.afterJunction junction scope) ')' (.missingJunctionOperand junction)

variable {limits : Limits} {c : Char} {cause : ParseError}

/-- A parenthesis is refused for want of room only. -/
theorem openParenthesis_eq_error {depth : Nat}
    (hopen : openParenthesis limits depth = .error cause) :
    limits.maxNestingDepth ≤ depth ∧ cause = .nestingTooDeep limits.maxNestingDepth := by
  unfold openParenthesis at hopen
  split at hopen
  case isTrue hfull => exact ⟨hfull, (Except.error.inj hopen).symm⟩
  case isFalse => cases hopen

/-- The refusals before the first expression. -/
theorem refuses_of_stepStart {depth : Nat} (hstep : stepStart limits depth c = .error cause) :
    Refuses limits (.start depth) c cause := by
  unfold stepStart at hstep
  split at hstep
  case isTrue => cases hstep
  case isFalse =>
    split at hstep
    case isTrue hstar =>
      rw [hstar]
      split at hstep
      case isTrue => cases hstep
      case isFalse hdepth =>
        obtain rfl := Except.error.inj hstep
        exact .wildcardInGroup (Nat.pos_of_ne_zero hdepth)
    case isFalse =>
      split at hstep
      case isTrue hparenthesis =>
        rw [hparenthesis]
        obtain ⟨hfull, rfl⟩ := openParenthesis_eq_error (eq_error_of_map_eq_error hstep)
        exact .openFirst hfull
      case isFalse =>
        split at hstep
        case isTrue hclose =>
          rw [hclose]
          split at hstep
          case isTrue hdepth =>
            obtain rfl := Except.error.inj hstep
            rw [hdepth]
            exact .closeFirst
          case isFalse hdepth =>
            obtain rfl := Except.error.inj hstep
            exact .emptyGroup (Nat.pos_of_ne_zero hdepth)
        case isFalse => cases hstep

/-- A junction is refused for want of room only. -/
theorem refuses_of_beginJunction {junction : Junction} {operand : Query} {scope : Scope}
    (hletter : junction.keyword.toList.take 1 = [c])
    (hbegin : beginJunction limits junction operand scope = .error cause) :
    Refuses limits (.afterOperand operand scope) c cause := by
  unfold beginJunction at hbegin
  split at hbegin
  case isTrue hfull =>
    obtain rfl := Except.error.inj hbegin
    exact .junction hletter hfull
  case isFalse => cases hbegin

/-- The refusals behind an expression. -/
theorem refuses_of_stepAfterOperand {operand : Query} {scope : Scope}
    (hstep : stepAfterOperand limits operand scope c = .error cause) :
    Refuses limits (.afterOperand operand scope) c cause := by
  unfold stepAfterOperand at hstep
  split at hstep
  case isTrue => cases hstep
  case isFalse hc =>
    split at hstep
    case isTrue hclose =>
      obtain ⟨chain, depth⟩ := scope
      rw [hclose]
      split at hstep
      case isTrue hdepth =>
        obtain rfl := Except.error.inj hstep
        have hzero : depth = 0 := hdepth
        rw [hzero]
        exact .close
      case isFalse => cases hstep
    case isFalse hclose =>
      split at hstep
      case isTrue hletter =>
        rw [hletter]
        exact refuses_of_beginJunction rfl hstep
      case isFalse ha =>
        split at hstep
        case isTrue hletter =>
          rw [hletter]
          exact refuses_of_beginJunction rfl hstep
        case isFalse ho =>
          obtain rfl := Except.error.inj hstep
          exact .noJunction (Bool.eq_false_iff.mpr hc) (by simp [hclose, ha, ho])

/-- The refusals behind a junction. -/
theorem refuses_of_stepAfterJunction {junction : Junction} {scope : Scope}
    (hstep : stepAfterJunction limits junction scope c = .error cause) :
    Refuses limits (.afterJunction junction scope) c cause := by
  unfold stepAfterJunction at hstep
  split at hstep
  case isTrue => cases hstep
  case isFalse =>
    split at hstep
    case isTrue hparenthesis =>
      rw [hparenthesis]
      cases hopen : openParenthesis limits scope.depth with
      | error other =>
        rw [hopen] at hstep
        obtain rfl : other = cause := Except.error.inj hstep
        obtain ⟨hfull, rfl⟩ := openParenthesis_eq_error hopen
        exact .openSide hfull
      | ok depth =>
        rw [hopen] at hstep
        cases hstep
    case isFalse =>
      split at hstep
      case isTrue hclose =>
        obtain rfl := Except.error.inj hstep
        rw [hclose]
        exact .missingSide
      case isFalse => cases hstep

/-- A character that a state does not accept is refused in one of the ways. -/
theorem refuses_of_step {state : State} (hstep : state.step limits c = .error cause) :
    Refuses limits state c cause := by
  cases state with
  | start depth => exact refuses_of_stepStart hstep
  | wildcard =>
    rw [step] at hstep
    split at hstep
    case isTrue => cases hstep
    case isFalse hc =>
      obtain rfl := Except.error.inj hstep
      exact .besideWildcard (Bool.eq_false_iff.mpr hc)
  | inClause clause scope =>
    rw [step] at hstep
    split at hstep
    case h_1 => cases hstep
    case h_2 => cases hstep
    case h_3 hclause =>
      exact .ended (Clause.moves_of_step hclause) (refuses_of_stepAfterOperand hstep)
    case h_4 hclause =>
      obtain rfl := Except.error.inj hstep
      exact .clause (Clause.refuses_of_step hclause)
  | afterOperand operand scope => exact refuses_of_stepAfterOperand hstep
  | inJunction junction matched scope =>
    rw [step] at hstep
    split at hstep
    case h_1 => cases hstep
    case h_2 => cases hstep
    case h_3 hkeyword =>
      obtain rfl := Except.error.inj hstep
      exact .keyword (stepKeyword_eq_error hkeyword)
  | afterJunction junction scope => exact refuses_of_stepAfterJunction hstep

/-- A text is refused exactly if one of its characters is, and all before it have been read. -/
theorem run_eq_error_iff {state : State} {text : List Char} :
    state.run limits text = .error cause ↔
      ∃ before c behind last, text = before ++ c :: behind ∧
        state.run limits before = .ok last ∧ last.step limits c = .error cause := by
  constructor
  · intro hrun
    induction text generalizing state with
    | nil => cases hrun
    | cons c rest ih =>
      cases hstep : state.step limits c with
      | error other =>
        rw [run_cons, hstep] at hrun
        obtain rfl : other = cause := Except.error.inj hrun
        exact ⟨[], c, rest, state, rfl, rfl, hstep⟩
      | ok next =>
        rw [run_cons_of_step hstep] at hrun
        obtain ⟨before, d, behind, last, rfl, hbefore, hlast⟩ := ih hrun
        refine ⟨c :: before, d, behind, last, rfl, ?_, hlast⟩
        rw [run_cons_of_step hstep, hbefore]
  · rintro ⟨before, c, behind, last, rfl, hbefore, hlast⟩
    rw [run_append_of_run hbefore, run_cons, hlast]
    rfl

end SearchCriteria.Reader.State
