import SearchCriteria.Reader.Word

/-!
# Clauses

A clause is the part of one relational expression that has been read: its
property, then its operator, then its operand. It knows nothing of the
parentheses and junctions around it.
-/

namespace SearchCriteria.Reader

/-- How far a relational expression has been read. -/
inductive Clause where
  /-- Within the property. -/
  | inProperty (token : String)
  /-- After the property, before the operator. -/
  | beforeOperator (property : String)
  /-- After `!`, `<` or `>`, which `=` may follow. -/
  | afterSymbol (property : String) (operator : Operator)
  /-- After `d`; the next letter tells `derivedFrom` from `doesNotContain`. -/
  | afterD (property : String)
  /-- Within a keyword. -/
  | inKeyword (property : String) (operator : Operator) (matched : Nat)
  /-- After the operator, before the operand. -/
  | beforeOperand (property : String) (operator : Operator) (spaced : Bool)
  /-- Within a text in double quotes; `escaped` after an open backslash. -/
  | inText (property : String) (operator : Operator) (content : String) (escaped : Bool)
  /-- Within `true` or `false`. -/
  | inFlag (property : String) (value : Bool) (matched : Nat)
  deriving DecidableEq

/-- What one more character makes of a clause. -/
inductive Clause.Outcome where
  /-- The clause goes on. -/
  | more (clause : Clause)
  /-- The character was the last of the clause, which is this query. -/
  | closed (operand : Query)
  /-- The clause, which is this query, had ended before the character. -/
  | ended (operand : Query)

namespace Clause

/-- The operator that `=` after a symbol makes of it, if it may stand there. -/
def orEqual : Operator → Option Operator
  | .compare .notEquals => some (.compare .notEquals)
  | .compare .lessThan => some (.compare .lessOrEqual)
  | .compare .greaterThan => some (.compare .greaterOrEqual)
  | _ => none

/-- The first character of an operator. -/
def beginOperator (property : String) (c : Char) : Except ParseError Clause :=
  match c with
  | '=' => .ok (.beforeOperand property (.compare .equals) false)
  | '!' => .ok (.afterSymbol property (.compare .notEquals))
  | '<' => .ok (.afterSymbol property (.compare .lessThan))
  | '>' => .ok (.afterSymbol property (.compare .greaterThan))
  | 'c' => .ok (.inKeyword property (.compare .contains) 1)
  | 'e' => .ok (.inKeyword property .existence 1)
  | 'd' => .ok (.afterD property)
  | _ => .error (.unexpectedOperatorBeginning (String.singleton c))

/-- The character after a symbol. -/
def stepSymbol (property : String) (operator : Operator) (c : Char) : Except ParseError Clause :=
  if c = '=' then
    match orEqual operator with
    | some whole => .ok (.beforeOperand property whole false)
    | none => .error (.missingWhitespace operator)
  else if operator = .compare .notEquals then .error (.incompleteOperator operator)
  else if isSeparator c then .ok (.beforeOperand property operator true)
  else .error (.missingWhitespace operator)

/-- The second letter of a keyword that begins with `d`. -/
def stepLetterD (property : String) (c : Char) : Except ParseError Clause :=
  if c = 'e' then .ok (.inKeyword property (.compare .derivedFrom) 2)
  else if c = 'o' then .ok (.inKeyword property (.compare .doesNotContain) 2)
  else if isSeparator c then .error (.unexpectedOperator "d")
  else .error (.unexpectedOperatorBeginning ("d".push c))

/-- The first character of an operand. -/
def beginOperand (property : String) (operator : Operator) (c : Char) :
    Except ParseError Clause :=
  match operator with
  | .existence =>
    if c = 't' then .ok (.inFlag property true 1)
    else if c = 'f' then .ok (.inFlag property false 1)
    else .error .expectedBoolean
  | .compare _ =>
    if c = '"' then .ok (.inText property operator "" false)
    else .error (.expectedString operator)

/-- One more character within double quotes. -/
def stepText (property : String) (operator : Operator) (content : String) (escaped : Bool)
    (c : Char) : Except ParseError Outcome :=
  if escaped then
    if Text.needsBackslash c then .ok (.more (.inText property operator (content.push c) false))
    else .error (.unexpectedEscape c)
  else if c = '\\' then .ok (.more (.inText property operator content true))
  else if c = '"' then
    match operator.withText content with
    | some relation => .ok (.closed (.relational property relation))
    | none => .error .expectedBoolean
  else .ok (.more (.inText property operator (content.push c) false))

/-- One more character of a truth value. A parenthesis may touch it. -/
def stepFlag (property : String) (value : Bool) (matched : Nat) (c : Char) :
    Except ParseError Outcome :=
  match (flagLiteral value).toList[matched]? with
  | some next =>
    if c = next then .ok (.more (.inFlag property value (matched + 1)))
    else .error .expectedBoolean
  | none =>
    if isSeparator c || c = '(' || c = ')' then
      .ok (.ended (.relational property (.existence value)))
    else .error .expectedBoolean

/-- One more character of a clause. -/
def step (c : Char) : Clause → Except ParseError Outcome
  | inProperty token =>
    .ok (.more (if isSeparator c then .beforeOperator token else .inProperty (token.push c)))
  | beforeOperator property =>
    if isSeparator c then .ok (.more (.beforeOperator property))
    else .more <$> beginOperator property c
  | afterSymbol property operator => .more <$> stepSymbol property operator c
  | afterD property => .more <$> stepLetterD property c
  | inKeyword property operator matched =>
    match stepKeyword operator.keyword.toList matched c with
    | .ok (some matched) => .ok (.more (.inKeyword property operator matched))
    | .ok none => .ok (.more (.beforeOperand property operator true))
    | .error cause => .error cause
  | beforeOperand property operator spaced =>
    if isSeparator c then .ok (.more (.beforeOperand property operator true))
    else if spaced then .more <$> beginOperand property operator c
    else .error (.missingWhitespace operator)
  | inText property operator content escaped => stepText property operator content escaped c
  | inFlag property value matched => stepFlag property value matched c

/-- What a clause is at the end of the text. Only a whole truth value is complete
without a further character. -/
def finish : Clause → Except ParseError Query
  | inProperty token => .error (.danglingProperty token)
  | beforeOperator property => .error (.missingOperator property)
  | afterSymbol _ operator =>
    if operator = .compare .notEquals then .error (.incompleteOperator operator)
    else .error (.missingOperand operator)
  | afterD _ => .error (.unexpectedOperator "d")
  | inKeyword _ operator matched =>
    if matched = operator.keyword.length then .error (.missingOperand operator)
    else .error (brokenKeyword operator.keyword.toList matched)
  | beforeOperand _ operator _ => .error (.missingOperand operator)
  | inText _ _ content _ => .error (.unterminatedString content)
  | inFlag property value matched =>
    if matched = (flagLiteral value).length then .ok (.relational property (.existence value))
    else .error .expectedBoolean

end Clause

end SearchCriteria.Reader
