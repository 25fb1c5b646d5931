import SearchCriteria.Proofs.Reader.Border
import SearchCriteria.Proofs.Reader.ClauseMove

/-!
# The moves of a reader

A reader moves in few ways, and each is listed here once with the condition under which
it is made. What every move keeps is kept by the reading of every text.
-/

namespace SearchCriteria.Reader.State

open Grammar

/-- `Moves limits state c next`: within the limits the character moves the reader from the
state to the next one. -/
inductive Moves (limits : Limits) : State → Char → State → Prop where
  /-- A separator before an expression changes nothing. -/
  | idle {state : State} {first : Bool} {scope : Scope} {c : Char}
      (hawaits : state.Awaits first scope) (hc : isSeparator c = true) :
      Moves limits state c state
  /-- The wildcard stands before everything else. -/
  | wildcard : Moves limits (.start 0) '*' .wildcard
  /-- Only separators follow the wildcard. -/
  | idleWildcard {c : Char} (hc : isSeparator c = true) : Moves limits .wildcard c .wildcard
  /-- A parenthesis before the first expression opens a group. -/
  | openFirst {depth : Nat} (hroom : depth < limits.maxNestingDepth) :
      Moves limits (.start depth) '(' (.start (depth + 1))
  /-- A parenthesis behind a junction opens a group. -/
  | openSide {junction : Junction} {scope : Scope} (hroom : scope.depth < limits.maxNestingDepth) :
      Moves limits (.afterJunction junction scope) '('
        (.afterJunction junction { scope with depth := scope.depth + 1 })
  /-- Any other character begins a property. -/
  | begin {state : State} {first : Bool} {scope : Scope} {c : Char}
      (hawaits : state.Awaits first scope) (hproperty : Property first [c]) :
      Moves limits state c (.inClause (.inProperty (String.singleton c)) scope)
  /-- The expression goes on. -/
  | more {clause clause' : Clause} {scope : Scope} {c : Char}
      (hclause : clause.Moves c (.more clause')) :
      Moves limits (.inClause clause scope) c (.inClause clause' scope)
  /-- The character is the last of the expression. -/
  | closed {clause : Clause} {operand : Query} {scope : Scope} {c : Char}
      (hclause : clause.Moves c (.closed operand)) :
      Moves limits (.inClause clause scope) c (.afterOperand operand scope)
  /-- The character shows that the expression had ended, and is read behind it. -/
  | ended {clause : Clause} {operand : Query} {scope : Scope} {c : Char} {next : State}
      (hclause : clause.Moves c (.ended operand))
      (hmoves : Moves limits (.afterOperand operand scope) c next) :
      Moves limits (.inClause clause scope) c next
  /-- A separator behind an expression changes nothing. -/
  | idleOperand {operand : Query} {scope : Scope} {c : Char} (hc : isSeparator c = true) :
      Moves limits (.afterOperand operand scope) c (.afterOperand operand scope)
  /-- A parenthesis closes the innermost open group. -/
  | close {operand : Query} {chain : Chain} {depth : Nat} :
      Moves limits (.afterOperand operand ⟨chain, depth + 1⟩) ')'
        (.afterOperand operand ⟨chain, depth⟩)
  /-- The first letter of a junction lets the junction wait. -/
  | junction {junction : Junction} {operand : Query} {scope : Scope} {c : Char}
      (hletter : junction.keyword.toList.take 1 = [c])
      (hroom : scope.chain.joined + 2 ≤ limits.maxTerms) :
      Moves limits (.afterOperand operand scope) c (.inJunction junction 1 { scope with
        chain := scope.chain.push operand junction (junction.priority scope.depth) })
  /-- The next letter of the keyword of a junction. -/
  | letter {junction : Junction} {matched : Nat} {scope : Scope} {c : Char}
      (hnext : junction.keyword.toList[matched]? = some c) :
      Moves limits (.inJunction junction matched scope) c (.inJunction junction (matched + 1) scope)
  /-- The separator behind the whole keyword of a junction. -/
  | endKeyword {junction : Junction} {matched : Nat} {scope : Scope} {c : Char}
      (hmatched : junction.keyword.toList.length ≤ matched) (hc : isSeparator c = true) :
      Moves limits (.inJunction junction matched scope) c (.afterJunction junction scope)

variable {limits : Limits}

/-- The moves before the first expression. -/
theorem moves_of_stepStart {depth : Nat} {c : Char} {next : State}
    (hstep : stepStart limits depth c = .ok next) : Moves limits (.start depth) c next := by
  unfold stepStart at hstep
  split at hstep
  case isTrue hc =>
    have hresult := Except.ok.inj hstep
    subst hresult
    exact .idle (.start depth) hc
  case isFalse hword =>
    split at hstep
    case isTrue hstar =>
      split at hstep
      case isTrue hdepth =>
        have hresult := Except.ok.inj hstep
        subst hresult
        rw [hstar, hdepth]
        exact .wildcard
      case isFalse => cases hstep
    case isFalse hstar =>
      split at hstep
      case isTrue hparenthesis =>
        rw [hparenthesis]
        obtain ⟨depth', hopen, rfl⟩ := exists_of_map_eq_ok hstep
        obtain ⟨hroom, rfl⟩ := openParenthesis_eq_ok hopen
        exact .openFirst hroom
      case isFalse hopen =>
        split at hstep
        case isTrue => split at hstep <;> cases hstep
        case isFalse hclose =>
          have hresult := Except.ok.inj hstep
          subst hresult
          exact .begin (.start depth)
            (property_singleton (Bool.eq_false_iff.mpr hword) hopen hclose fun _ => hstar)

/-- The moves behind a junction. -/
theorem moves_of_stepAfterJunction {junction : Junction} {scope : Scope} {c : Char}
    {next : State} (hstep : stepAfterJunction limits junction scope c = .ok next) :
    Moves limits (.afterJunction junction scope) c next := by
  unfold stepAfterJunction at hstep
  split at hstep
  case isTrue hc =>
    have hresult := Except.ok.inj hstep
    subst hresult
    exact .idle (.afterJunction junction scope) hc
  case isFalse hword =>
    split at hstep
    case isTrue hparenthesis =>
      rw [hparenthesis]
      obtain ⟨depth, hopen, hnext⟩ := exists_of_bind_eq_ok hstep
      have hresult := Except.ok.inj hnext
      subst hresult
      obtain ⟨hroom, rfl⟩ := openParenthesis_eq_ok hopen
      exact .openSide hroom
    case isFalse hopen =>
      split at hstep
      case isTrue => cases hstep
      case isFalse hclose =>
        have hresult := Except.ok.inj hstep
        subst hresult
        exact .begin (.afterJunction junction scope)
          (property_singleton (Bool.eq_false_iff.mpr hword) hopen hclose (by simp))

/-- The moves of the first letter of a junction. -/
theorem moves_of_beginJunction {junction : Junction} {operand : Query} {scope : Scope} {c : Char}
    {next : State} (hletter : junction.keyword.toList.take 1 = [c])
    (hbegin : beginJunction limits junction operand scope = .ok next) :
    Moves limits (.afterOperand operand scope) c next := by
  obtain ⟨hroom, rfl⟩ := beginJunction_eq_ok hbegin
  exact .junction hletter hroom

/-- The moves behind an expression. -/
theorem moves_of_stepAfterOperand {operand : Query} {scope : Scope} {c : Char} {next : State}
    (hstep : stepAfterOperand limits operand scope c = .ok next) :
    Moves limits (.afterOperand operand scope) c next := by
  unfold stepAfterOperand at hstep
  split at hstep
  case isTrue hc =>
    have hresult := Except.ok.inj hstep
    subst hresult
    exact .idleOperand hc
  case isFalse =>
    split at hstep
    case isTrue hclose =>
      obtain ⟨chain, depth⟩ := scope
      rw [hclose]
      cases depth with
      | zero => cases hstep
      | succ depth =>
        have hresult := Except.ok.inj hstep
        subst hresult
        exact .close
    case isFalse =>
      split at hstep
      case isTrue hletter =>
        rw [hletter]
        exact moves_of_beginJunction rfl hstep
      case isFalse =>
        split at hstep
        case isTrue hletter =>
          rw [hletter]
          exact moves_of_beginJunction rfl hstep
        case isFalse => cases hstep

/-- A character that is accepted makes one of the moves. -/
theorem moves_of_step {state next : State} {c : Char}
    (hstep : state.step limits c = .ok next) : Moves limits state c next := by
  cases state with
  | start depth => exact moves_of_stepStart hstep
  | wildcard =>
    rw [step] at hstep
    split at hstep
    case isTrue hc =>
      have hresult := Except.ok.inj hstep
      subst hresult
      exact .idleWildcard hc
    case isFalse => cases hstep
  | inClause clause scope =>
    rw [step] at hstep
    split at hstep
    case h_1 hclause =>
      have hresult := Except.ok.inj hstep
      subst hresult
      exact .more (Clause.moves_of_step hclause)
    case h_2 hclause =>
      have hresult := Except.ok.inj hstep
      subst hresult
      exact .closed (Clause.moves_of_step hclause)
    case h_3 hclause =>
      exact .ended (Clause.moves_of_step hclause) (moves_of_stepAfterOperand hstep)
    case h_4 => cases hstep
  | afterOperand operand scope => exact moves_of_stepAfterOperand hstep
  | inJunction junction matched scope =>
    rw [step] at hstep
    split at hstep
    case h_1 matched' hkeyword =>
      have hresult := Except.ok.inj hstep
      subst hresult
      rcases stepKeyword_eq_ok hkeyword with ⟨hmatched, hnext⟩ | ⟨hnone, -⟩
      · obtain rfl := Option.some.inj hmatched
        exact .letter hnext
      · cases hnone
    case h_2 hkeyword =>
      have hresult := Except.ok.inj hstep
      subst hresult
      rcases stepKeyword_eq_ok hkeyword with ⟨hsome, -⟩ | ⟨-, hc, hmatched⟩
      · cases hsome
      · exact .endKeyword hmatched hc
    case h_3 => cases hstep
  | afterJunction junction scope => exact moves_of_stepAfterJunction hstep

/-- At the end of the text a query is the wildcard, or it is folded from the operand that
was read last. -/
theorem finish_eq_ok {state : State} {query : Query} (hfinish : state.finish = .ok query) :
    (state = .wildcard ∧ query = .allResults) ∨
      (∃ operand scope, state = .afterOperand operand scope ∧
        scope.finish operand = .ok query) ∨
      ∃ clause operand scope, state = .inClause clause scope ∧ clause.finish = .ok operand ∧
        scope.finish operand = .ok query := by
  cases state with
  | start depth => cases hfinish
  | wildcard => exact .inl ⟨rfl, (Except.ok.inj hfinish).symm⟩
  | inClause clause scope =>
    rw [finish] at hfinish
    obtain ⟨operand, hclause, hscope⟩ := exists_of_bind_eq_ok hfinish
    exact .inr (.inr ⟨clause, operand, scope, rfl, hclause, hscope⟩)
  | afterOperand operand scope => exact .inr (.inl ⟨operand, scope, rfl, hfinish⟩)
  | inJunction junction matched scope =>
    rw [finish] at hfinish
    split at hfinish <;> cases hfinish
  | afterJunction junction scope => cases hfinish

/-- What each move keeps, with the text read so far, every reading keeps. -/
theorem run_induction {motive : List Char → State → Prop}
    (hmoves : ∀ {text : List Char} {state next : State} {c : Char}, motive text state →
      Moves limits state c next → motive (text ++ [c]) next)
    {before text : List Char} {state last : State} (hstate : motive before state)
    (hrun : state.run limits text = .ok last) : motive (before ++ text) last := by
  induction text generalizing before state with
  | nil =>
    have hresult := Except.ok.inj hrun
    subst hresult
    rwa [List.append_nil]
  | cons c rest ih =>
    obtain ⟨next, hstep, hrest⟩ := exists_of_run_cons hrun
    have hnext := ih (hmoves hstate (moves_of_step hstep)) hrest
    rwa [List.append_assoc] at hnext

/-- What each move keeps, whatever the text, every reading keeps. -/
theorem run_invariant {motive : State → Prop}
    (hmoves : ∀ {state next : State} {c : Char}, motive state → Moves limits state c next →
      motive next)
    {text : List Char} {state last : State} (hstate : motive state)
    (hrun : state.run limits text = .ok last) : motive last :=
  @run_induction limits (fun _ state => motive state) hmoves [] text state last hstate hrun

end SearchCriteria.Reader.State
