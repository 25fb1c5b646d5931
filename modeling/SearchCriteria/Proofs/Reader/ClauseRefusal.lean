import SearchCriteria.Proofs.Reader.Result

/-!
# What a clause refuses

A character that does not go on with a relational expression is refused for a cause that tells
where the expression is broken. The refusals are listed here, each with its cause, and the
reading of a single character is taken apart for them only once.
-/

namespace SearchCriteria.Reader

/-- `BreaksKeyword keyword matched c cause`: behind so many letters of the keyword the character
is refused for the cause. -/
inductive BreaksKeyword (keyword : List Char) (matched : Nat) (c : Char) : ParseError → Prop where
  /-- A separator breaks the keyword off. -/
  | separated (hmatched : matched < keyword.length) (hc : isSeparator c = true) :
      BreaksKeyword keyword matched c (.unexpectedOperator (String.ofList (keyword.take matched)))
  /-- Any other character belongs to no keyword with these letters. -/
  | misspelled (hnext : keyword[matched]? ≠ some c) (hc : isSeparator c = false) :
      BreaksKeyword keyword matched c
        (.unexpectedOperatorBeginning ((String.ofList (keyword.take matched)).push c))

/-- A character that no keyword goes on with breaks the keyword. -/
theorem stepKeyword_eq_error {keyword : List Char} {matched : Nat} {c : Char} {cause : ParseError}
    (hstep : stepKeyword keyword matched c = .error cause) :
    BreaksKeyword keyword matched c cause := by
  unfold stepKeyword at hstep
  simp only at hstep
  split at hstep
  case h_1 next hnext =>
    split at hstep
    case isTrue => cases hstep
    case isFalse hc =>
      split at hstep
      case isTrue hseparator =>
        obtain rfl := Except.error.inj hstep
        exact .separated (List.getElem?_eq_some_iff.mp hnext).1 hseparator
      case isFalse hword =>
        obtain rfl := Except.error.inj hstep
        refine .misspelled ?_ (Bool.eq_false_iff.mpr hword)
        rw [hnext]
        exact fun hsome => hc (Option.some.inj hsome).symm
  case h_2 hend =>
    split at hstep
    case isTrue => cases hstep
    case isFalse hword =>
      obtain rfl := Except.error.inj hstep
      exact .misspelled (by simp [hend]) (Bool.eq_false_iff.mpr hword)

namespace Clause

/-- `Refuses clause c cause`: the clause does not go on with the character, for the cause. -/
inductive Refuses : Clause → Char → ParseError → Prop where
  /-- No operator begins with the character. -/
  | operator {property : String} {c : Char} (hc : isSeparator c = false)
      (hletter : c ∉ ['=', '!', '<', '>', 'c', 'e', 'd']) :
      Refuses (.beforeOperator property) c (.unexpectedOperatorBeginning (String.singleton c))
  /-- An exclamation mark needs an equals sign. -/
  | notEquals {property : String} {c : Char} (hequal : c ≠ '=') :
      Refuses (.afterSymbol property (.compare .notEquals)) c
        (.incompleteOperator (.compare .notEquals))
  /-- Something touches a symbol. -/
  | symbol {property : String} {operator : Operator} {c : Char}
      (hcomplete : operator ≠ .compare .notEquals)
      (hequal : c = '=' → orEqual operator = none) (hc : isSeparator c = false) :
      Refuses (.afterSymbol property operator) c (.missingWhitespace operator)
  /-- A separator stands behind the common letter of two words. -/
  | separatedD {property : String} {c : Char} (hc : isSeparator c = true) :
      Refuses (.afterD property) c (.unexpectedOperator "d")
  /-- Neither of two words goes on with the character. -/
  | letterD {property : String} {c : Char} (hc : isSeparator c = false) (he : c ≠ 'e')
      (ho : c ≠ 'o') :
      Refuses (.afterD property) c (.unexpectedOperatorBeginning ("d".push c))
  /-- A word is broken. -/
  | keyword {property : String} {operator : Operator} {matched : Nat} {c : Char}
      {cause : ParseError} (hbreaks : BreaksKeyword operator.keyword.toList matched c cause) :
      Refuses (.inKeyword property operator matched) c cause
  /-- The operand touches its operator. -/
  | unspaced {property : String} {operator : Operator} {c : Char} (hc : isSeparator c = false) :
      Refuses (.beforeOperand property operator false) c (.missingWhitespace operator)
  /-- No truth value begins with the character. -/
  | flag {property : String} {c : Char} (hc : isSeparator c = false) (ht : c ≠ 't')
      (hf : c ≠ 'f') :
      Refuses (.beforeOperand property .existence true) c .expectedBoolean
  /-- A text begins with a quote only. -/
  | unquoted {property : String} {comparison : Comparison} {c : Char}
      (hc : isSeparator c = false) (hquote : c ≠ '"') :
      Refuses (.beforeOperand property (.compare comparison) true) c
        (.expectedString (.compare comparison))
  /-- The character needs no backslash. -/
  | escaped {property : String} {operator : Operator} {content : String} {c : Char}
      (hc : Text.needsBackslash c = false) :
      Refuses (.inText property operator content true) c (.unexpectedEscape c)
  /-- A text ends that `exists` does not take. -/
  | text {property content : String} :
      Refuses (.inText property .existence content false) '"' .expectedBoolean
  /-- The truth value does not go on with the character. -/
  | flagLetter {property : String} {value : Bool} {matched : Nat} {c : Char}
      (hnext : (flagLiteral value).toList[matched]? ≠ some c) :
      Refuses (.inFlag property value matched) c .expectedBoolean

variable {property : String} {c : Char} {cause : ParseError}

/-- The refusal of the first character of an operator. -/
theorem refuses_of_beginOperator (hc : isSeparator c = false)
    (hbegin : beginOperator property c = .error cause) :
    Refuses (.beforeOperator property) c cause := by
  unfold beginOperator at hbegin
  split at hbegin
  case h_8 =>
    obtain rfl := Except.error.inj hbegin
    exact .operator hc (by simp_all)
  all_goals cases hbegin

/-- The refusal of the character behind a symbol. -/
theorem refuses_of_stepSymbol {operator : Operator}
    (hstep : stepSymbol property operator c = .error cause) :
    Refuses (.afterSymbol property operator) c cause := by
  unfold stepSymbol at hstep
  split at hstep
  case isTrue hequal =>
    split at hstep
    case h_1 => cases hstep
    case h_2 hnone =>
      obtain rfl := Except.error.inj hstep
      refine .symbol ?_ (fun _ => hnone) (by rw [hequal]; decide)
      rintro rfl
      cases hnone
  case isFalse hequal =>
    split at hstep
    case isTrue hincomplete =>
      obtain rfl := Except.error.inj hstep
      subst hincomplete
      exact .notEquals hequal
    case isFalse hcomplete =>
      split at hstep
      case isTrue => cases hstep
      case isFalse hc =>
        obtain rfl := Except.error.inj hstep
        exact .symbol hcomplete (absurd · hequal) (Bool.eq_false_iff.mpr hc)

/-- The refusal of the letter behind `d`. -/
theorem refuses_of_stepLetterD (hstep : stepLetterD property c = .error cause) :
    Refuses (.afterD property) c cause := by
  unfold stepLetterD at hstep
  split at hstep
  case isTrue => cases hstep
  case isFalse he =>
    split at hstep
    case isTrue => cases hstep
    case isFalse ho =>
      split at hstep
      case isTrue hc =>
        obtain rfl := Except.error.inj hstep
        exact .separatedD hc
      case isFalse hc =>
        obtain rfl := Except.error.inj hstep
        exact .letterD (Bool.eq_false_iff.mpr hc) he ho

/-- The refusal of the first character of an operand. -/
theorem refuses_of_beginOperand {operator : Operator} (hc : isSeparator c = false)
    (hbegin : beginOperand property operator c = .error cause) :
    Refuses (.beforeOperand property operator true) c cause := by
  unfold beginOperand at hbegin
  split at hbegin
  case h_1 =>
    split at hbegin
    case isTrue => cases hbegin
    case isFalse ht =>
      split at hbegin
      case isTrue => cases hbegin
      case isFalse hf =>
        obtain rfl := Except.error.inj hbegin
        exact .flag hc ht hf
  case h_2 =>
    split at hbegin
    case isTrue => cases hbegin
    case isFalse hquote =>
      obtain rfl := Except.error.inj hbegin
      exact .unquoted hc hquote

/-- The refusals within double quotes. -/
theorem refuses_of_stepText {operator : Operator} {content : String} {escaped : Bool}
    (hstep : stepText property operator content escaped c = .error cause) :
    Refuses (.inText property operator content escaped) c cause := by
  unfold stepText at hstep
  split at hstep
  case isTrue hescaped =>
    split at hstep
    case isTrue => cases hstep
    case isFalse hc =>
      obtain rfl := Except.error.inj hstep
      rw [hescaped]
      exact .escaped (Bool.eq_false_iff.mpr hc)
  case isFalse hescaped =>
    rw [Bool.eq_false_iff.mpr hescaped]
    split at hstep
    case isTrue => cases hstep
    case isFalse =>
      split at hstep
      case isTrue hquote =>
        rw [hquote]
        cases operator with
        | existence =>
          obtain rfl := Except.error.inj hstep
          exact .text
        | compare => cases hstep
      case isFalse => cases hstep

/-- The refusals within and behind a truth value. -/
theorem refuses_of_stepFlag {value : Bool} {matched : Nat}
    (hstep : stepFlag property value matched c = .error cause) :
    Refuses (.inFlag property value matched) c cause := by
  unfold stepFlag at hstep
  split at hstep
  case h_1 next hnext =>
    split at hstep
    case isTrue => cases hstep
    case isFalse hc =>
      obtain rfl := Except.error.inj hstep
      refine .flagLetter ?_
      rw [hnext]
      exact fun hsome => hc (Option.some.inj hsome).symm
  case h_2 hend =>
    split at hstep
    case isTrue => cases hstep
    case isFalse =>
      obtain rfl := Except.error.inj hstep
      exact .flagLetter (by simp [hend])

/-- A character that a clause does not accept is refused in one of the ways. -/
theorem refuses_of_step {clause : Clause} (hstep : clause.step c = .error cause) :
    Refuses clause c cause := by
  cases clause with
  | inProperty token => cases hstep
  | beforeOperator property =>
    rw [step] at hstep
    split at hstep
    case isTrue => cases hstep
    case isFalse hc =>
      have hbegin := eq_error_of_map_eq_error hstep
      exact refuses_of_beginOperator (Bool.eq_false_iff.mpr hc) hbegin
  | afterSymbol property operator =>
    exact refuses_of_stepSymbol (eq_error_of_map_eq_error hstep)
  | afterD property => exact refuses_of_stepLetterD (eq_error_of_map_eq_error hstep)
  | inKeyword property operator matched =>
    rw [step] at hstep
    split at hstep
    case h_1 => cases hstep
    case h_2 => cases hstep
    case h_3 cause' hkeyword =>
      obtain rfl := Except.error.inj hstep
      exact .keyword (stepKeyword_eq_error hkeyword)
  | beforeOperand property operator spaced =>
    rw [step] at hstep
    split at hstep
    case isTrue => cases hstep
    case isFalse hc =>
      have hword := Bool.eq_false_iff.mpr hc
      split at hstep
      case isTrue hspaced =>
        rw [hspaced]
        exact refuses_of_beginOperand hword (eq_error_of_map_eq_error hstep)
      case isFalse hspaced =>
        obtain rfl := Except.error.inj hstep
        rw [Bool.eq_false_iff.mpr hspaced]
        exact .unspaced hword
  | inText property operator content escaped => exact refuses_of_stepText hstep
  | inFlag property value matched => exact refuses_of_stepFlag hstep

end Clause

end SearchCriteria.Reader
