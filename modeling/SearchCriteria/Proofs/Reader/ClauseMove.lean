import SearchCriteria.Proofs.Reader.Result

/-!
# The moves of a clause

A relational expression is read by the moves that are listed here, each with the
characters that make it. What is kept by every move is shown from this list, and the
reading of a single character is taken apart only once.
-/

namespace SearchCriteria.Reader.Clause

/-- `Moves clause c outcome`: the character makes the outcome of the clause. -/
inductive Moves : Clause → Char → Outcome → Prop where
  /-- The property goes on. -/
  | property {token : String} {c : Char} (hc : isSeparator c = false) :
      Moves (.inProperty token) c (.more (.inProperty (token.push c)))
  /-- A separator ends the property. -/
  | endProperty {token : String} {c : Char} (hc : isSeparator c = true) :
      Moves (.inProperty token) c (.more (.beforeOperator token))
  /-- A separator before the operator changes nothing. -/
  | idleOperator {property : String} {c : Char} (hc : isSeparator c = true) :
      Moves (.beforeOperator property) c (.more (.beforeOperator property))
  /-- The equals sign is an operator of its own. -/
  | equals {property : String} :
      Moves (.beforeOperator property) '=' (.more (.beforeOperand property (.compare .equals) false))
  /-- Any other symbol may have an equals sign behind it. -/
  | symbol {property : String} {operator : Operator} {c : Char}
      (hsymbol : operator = .compare .notEquals ∨ operator = .compare .lessThan ∨
        operator = .compare .greaterThan)
      (hletter : operator.keyword.toList.take 1 = [c]) :
      Moves (.beforeOperator property) c (.more (.afterSymbol property operator))
  /-- The first letter of a word that no other word begins with. -/
  | word {property : String} {operator : Operator} {c : Char}
      (hword : operator = .compare .contains ∨ operator = .existence)
      (hletter : operator.keyword.toList.take 1 = [c]) :
      Moves (.beforeOperator property) c (.more (.inKeyword property operator 1))
  /-- The first letter of two words. -/
  | letterD {property : String} : Moves (.beforeOperator property) 'd' (.more (.afterD property))
  /-- The equals sign behind a symbol. -/
  | symbolEquals {property : String} {operator whole : Operator}
      (hwhole : orEqual operator = some whole) :
      Moves (.afterSymbol property operator) '=' (.more (.beforeOperand property whole false))
  /-- A separator ends a symbol that is an operator of its own. -/
  | endSymbol {property : String} {operator : Operator} {c : Char}
      (hcomplete : operator ≠ .compare .notEquals) (hc : isSeparator c = true) :
      Moves (.afterSymbol property operator) c (.more (.beforeOperand property operator true))
  /-- The second letter tells the two words apart. -/
  | secondLetter {property : String} {operator : Operator} {c : Char}
      (hword : operator = .compare .derivedFrom ∨ operator = .compare .doesNotContain)
      (hletters : operator.keyword.toList.take 2 = ['d', c]) :
      Moves (.afterD property) c (.more (.inKeyword property operator 2))
  /-- The next letter of a word. -/
  | letter {property : String} {operator : Operator} {matched : Nat} {c : Char}
      (hnext : operator.keyword.toList[matched]? = some c) :
      Moves (.inKeyword property operator matched) c
        (.more (.inKeyword property operator (matched + 1)))
  /-- A separator ends a whole word. -/
  | endKeyword {property : String} {operator : Operator} {matched : Nat} {c : Char}
      (hmatched : operator.keyword.toList.length ≤ matched) (hc : isSeparator c = true) :
      Moves (.inKeyword property operator matched) c (.more (.beforeOperand property operator true))
  /-- A separator stands before the operand. -/
  | idleOperand {property : String} {operator : Operator} {spaced : Bool} {c : Char}
      (hc : isSeparator c = true) :
      Moves (.beforeOperand property operator spaced) c
        (.more (.beforeOperand property operator true))
  /-- A quote begins the text of a comparison. -/
  | quote {property : String} {comparison : Comparison} :
      Moves (.beforeOperand property (.compare comparison) true) '"'
        (.more (.inText property (.compare comparison) "" false))
  /-- A letter begins the truth value of `exists`. -/
  | flag {property : String} {value : Bool} {c : Char}
      (hletter : (flagLiteral value).toList.take 1 = [c]) :
      Moves (.beforeOperand property .existence true) c (.more (.inFlag property value 1))
  /-- A backslash stands for the character behind it. -/
  | backslash {property : String} {operator : Operator} {content : String} :
      Moves (.inText property operator content false) '\\'
        (.more (.inText property operator content true))
  /-- Only what needs a backslash may stand behind one. -/
  | escaped {property : String} {operator : Operator} {content : String} {c : Char}
      (hc : Text.needsBackslash c = true) :
      Moves (.inText property operator content true) c
        (.more (.inText property operator (content.push c) false))
  /-- Any other character stands for itself. -/
  | plain {property : String} {operator : Operator} {content : String} {c : Char}
      (hc : Text.needsBackslash c = false) :
      Moves (.inText property operator content false) c
        (.more (.inText property operator (content.push c) false))
  /-- A quote closes the text. -/
  | unquote {property : String} {comparison : Comparison} {content : String} :
      Moves (.inText property (.compare comparison) content false) '"'
        (.closed (.relational property (.compare comparison content)))
  /-- The next letter of a truth value. -/
  | flagLetter {property : String} {value : Bool} {matched : Nat} {c : Char}
      (hnext : (flagLiteral value).toList[matched]? = some c) :
      Moves (.inFlag property value matched) c (.more (.inFlag property value (matched + 1)))
  /-- What may touch a truth value shows that it has ended. -/
  | endFlag {property : String} {value : Bool} {matched : Nat} {c : Char}
      (hmatched : (flagLiteral value).toList.length ≤ matched)
      (hc : isSeparator c = true ∨ c = '(' ∨ c = ')') :
      Moves (.inFlag property value matched) c (.ended (.relational property (.existence value)))

variable {property : String} {c : Char}

/-- The moves of the first character of an operator. -/
theorem moves_of_beginOperator {clause : Clause} (hbegin : beginOperator property c = .ok clause) :
    Moves (.beforeOperator property) c (.more clause) := by
  unfold beginOperator at hbegin
  split at hbegin
  case h_1 =>
    have hresult := Except.ok.inj hbegin
    subst hresult
    exact .equals
  case h_2 =>
    have hresult := Except.ok.inj hbegin
    subst hresult
    exact .symbol (.inl rfl) rfl
  case h_3 =>
    have hresult := Except.ok.inj hbegin
    subst hresult
    exact .symbol (.inr (.inl rfl)) rfl
  case h_4 =>
    have hresult := Except.ok.inj hbegin
    subst hresult
    exact .symbol (.inr (.inr rfl)) rfl
  case h_5 =>
    have hresult := Except.ok.inj hbegin
    subst hresult
    exact .word (.inl rfl) rfl
  case h_6 =>
    have hresult := Except.ok.inj hbegin
    subst hresult
    exact .word (.inr rfl) rfl
  case h_7 =>
    have hresult := Except.ok.inj hbegin
    subst hresult
    exact .letterD
  case h_8 => cases hbegin

/-- The moves of the character behind a symbol. -/
theorem moves_of_stepSymbol {operator : Operator} {clause : Clause}
    (hstep : stepSymbol property operator c = .ok clause) :
    Moves (.afterSymbol property operator) c (.more clause) := by
  unfold stepSymbol at hstep
  split at hstep
  case isTrue hequal =>
    split at hstep
    case h_1 whole hwhole =>
      have hresult := Except.ok.inj hstep
      subst hresult
      rw [hequal]
      exact .symbolEquals hwhole
    case h_2 => cases hstep
  case isFalse =>
    split at hstep
    case isTrue => cases hstep
    case isFalse hcomplete =>
      split at hstep
      case isTrue hc =>
        have hresult := Except.ok.inj hstep
        subst hresult
        exact .endSymbol hcomplete hc
      case isFalse => cases hstep

/-- The moves of the letter behind `d`. -/
theorem moves_of_stepLetterD {clause : Clause} (hstep : stepLetterD property c = .ok clause) :
    Moves (.afterD property) c (.more clause) := by
  unfold stepLetterD at hstep
  split at hstep
  case isTrue hletter =>
    have hresult := Except.ok.inj hstep
    subst hresult
    rw [hletter]
    exact .secondLetter (.inl rfl) rfl
  case isFalse =>
    split at hstep
    case isTrue hletter =>
      have hresult := Except.ok.inj hstep
      subst hresult
      rw [hletter]
      exact .secondLetter (.inr rfl) rfl
    case isFalse => split at hstep <;> cases hstep

/-- The moves of the first character of an operand. -/
theorem moves_of_beginOperand {operator : Operator} {clause : Clause}
    (hbegin : beginOperand property operator c = .ok clause) :
    Moves (.beforeOperand property operator true) c (.more clause) := by
  unfold beginOperand at hbegin
  split at hbegin
  case h_1 =>
    split at hbegin
    case isTrue hletter =>
      have hresult := Except.ok.inj hbegin
      subst hresult
      rw [hletter]
      exact .flag rfl
    case isFalse =>
      split at hbegin
      case isTrue hletter =>
        have hresult := Except.ok.inj hbegin
        subst hresult
        rw [hletter]
        exact .flag rfl
      case isFalse => cases hbegin
  case h_2 =>
    split at hbegin
    case isTrue hquote =>
      have hresult := Except.ok.inj hbegin
      subst hresult
      rw [hquote]
      exact .quote
    case isFalse => cases hbegin

/-- The moves within double quotes. -/
theorem moves_of_stepText {operator : Operator} {content : String} {escaped : Bool}
    {outcome : Outcome} (hstep : stepText property operator content escaped c = .ok outcome) :
    Moves (.inText property operator content escaped) c outcome := by
  unfold stepText at hstep
  split at hstep
  case isTrue hescaped =>
    split at hstep
    case isTrue hc =>
      have hresult := Except.ok.inj hstep
      subst hresult
      rw [hescaped]
      exact .escaped hc
    case isFalse => cases hstep
  case isFalse hescaped =>
    rw [Bool.eq_false_iff.mpr hescaped]
    split at hstep
    case isTrue hbackslash =>
      have hresult := Except.ok.inj hstep
      subst hresult
      rw [hbackslash]
      exact .backslash
    case isFalse hbackslash =>
      split at hstep
      case isTrue hquote =>
        rw [hquote]
        cases operator with
        | existence => cases hstep
        | compare comparison =>
          have hresult := Except.ok.inj hstep
          subst hresult
          exact .unquote
      case isFalse hquote =>
        have hresult := Except.ok.inj hstep
        subst hresult
        have hplain : Text.needsBackslash c = false := by
          simp [Text.needsBackslash, hbackslash, hquote]
        exact .plain hplain

/-- The moves within and behind a truth value. -/
theorem moves_of_stepFlag {value : Bool} {matched : Nat} {outcome : Outcome}
    (hstep : stepFlag property value matched c = .ok outcome) :
    Moves (.inFlag property value matched) c outcome := by
  unfold stepFlag at hstep
  split at hstep
  case h_1 next hnext =>
    split at hstep
    case isTrue hc =>
      have hresult := Except.ok.inj hstep
      subst hresult
      rw [← hc] at hnext
      exact .flagLetter hnext
    case isFalse => cases hstep
  case h_2 hend =>
    split at hstep
    case isTrue hc =>
      have hresult := Except.ok.inj hstep
      subst hresult
      have htouch : isSeparator c = true ∨ c = '(' ∨ c = ')' := by
        simpa [or_assoc] using hc
      exact .endFlag (List.getElem?_eq_none_iff.mp hend) htouch
    case isFalse => cases hstep

/-- A character that a clause accepts makes one of the moves. -/
theorem moves_of_step {clause : Clause} {outcome : Outcome}
    (hstep : clause.step c = .ok outcome) : Moves clause c outcome := by
  cases clause with
  | inProperty token =>
    have hresult := Except.ok.inj hstep
    subst hresult
    by_cases hc : isSeparator c = true
    · rw [if_pos hc]
      exact .endProperty hc
    · rw [if_neg hc]
      exact .property (Bool.eq_false_iff.mpr hc)
  | beforeOperator property =>
    rw [step] at hstep
    split at hstep
    case isTrue hc =>
      have hresult := Except.ok.inj hstep
      subst hresult
      exact .idleOperator hc
    case isFalse =>
      obtain ⟨clause, hbegin, rfl⟩ := exists_of_map_eq_ok hstep
      exact moves_of_beginOperator hbegin
  | afterSymbol property operator =>
    obtain ⟨clause, hsymbol, rfl⟩ := exists_of_map_eq_ok hstep
    exact moves_of_stepSymbol hsymbol
  | afterD property =>
    obtain ⟨clause, hletter, rfl⟩ := exists_of_map_eq_ok hstep
    exact moves_of_stepLetterD hletter
  | inKeyword property operator matched =>
    rw [step] at hstep
    split at hstep
    case h_1 matched' hkeyword =>
      have hresult := Except.ok.inj hstep
      subst hresult
      rcases stepKeyword_eq_ok hkeyword with ⟨hmatched, hnext⟩ | ⟨hnone, -⟩
      · obtain rfl := Option.some.inj hmatched
        exact .letter hnext
      · cases hnone
    case h_2 hkeyword =>
      have hresult := Except.ok.inj hstep
      subst hresult
      rcases stepKeyword_eq_ok hkeyword with ⟨hsome, -⟩ | ⟨-, hc, hmatched⟩
      · cases hsome
      · exact .endKeyword hmatched hc
    case h_3 => cases hstep
  | beforeOperand property operator spaced =>
    rw [step] at hstep
    split at hstep
    case isTrue hc =>
      have hresult := Except.ok.inj hstep
      subst hresult
      exact .idleOperand hc
    case isFalse =>
      split at hstep
      case isTrue hspaced =>
        obtain ⟨clause, hbegin, rfl⟩ := exists_of_map_eq_ok hstep
        rw [hspaced]
        exact moves_of_beginOperand hbegin
      case isFalse => cases hstep
  | inText property operator content escaped => exact moves_of_stepText hstep
  | inFlag property value matched => exact moves_of_stepFlag hstep

/-- Only a whole truth value is an expression at the end of the text. -/
theorem finish_eq_ok {clause : Clause} {operand : Query} (hfinish : clause.finish = .ok operand) :
    ∃ property value, clause = .inFlag property value (flagLiteral value).toList.length ∧
      operand = .relational property (.existence value) := by
  cases clause with
  | inFlag property value matched =>
    rw [finish] at hfinish
    split at hfinish
    case isTrue hmatched =>
      rw [← String.length_toList] at hmatched
      rw [hmatched]
      exact ⟨property, value, rfl, (Except.ok.inj hfinish).symm⟩
    case isFalse => cases hfinish
  | afterSymbol property operator =>
    rw [finish] at hfinish
    split at hfinish <;> cases hfinish
  | inKeyword property operator matched =>
    rw [finish] at hfinish
    split at hfinish <;> cases hfinish
  | _ => cases hfinish

end SearchCriteria.Reader.Clause
