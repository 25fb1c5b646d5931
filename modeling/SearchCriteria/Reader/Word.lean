import SearchCriteria.ParseError
import SearchCriteria.Text.Separator

/-!
# Words with one spelling

Keywords and truth values are read a character at a time against their known
spelling; `matched` counts the characters already read.
-/

namespace SearchCriteria.Reader

/-- One more character of a keyword. The result is the new number of matched
characters, or `none` once a separator follows the whole keyword. -/
def stepKeyword (keyword : List Char) (matched : Nat) (c : Char) :
    Except ParseError (Option Nat) :=
  let part := String.ofList (keyword.take matched)
  match keyword[matched]? with
  | some next =>
    if c = next then .ok (some (matched + 1))
    else if isSeparator c then .error (.unexpectedOperator part)
    else .error (.unexpectedOperatorBeginning (part.push c))
  | none =>
    if isSeparator c then .ok none
    else .error (.unexpectedOperatorBeginning (part.push c))

/-- Why a keyword that ends after its first `matched` characters is refused. -/
def brokenKeyword (keyword : List Char) (matched : Nat) : ParseError :=
  .unexpectedOperator (String.ofList (keyword.take matched))

end SearchCriteria.Reader
