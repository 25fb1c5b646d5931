import SearchCriteria.Query

/-!
# Why a text is no query

Each constructor is one cause for which a reader refuses a text. The parts of
the text that a cause carries are quoted from the place where reading stopped.
-/

namespace SearchCriteria

/-- The causes for which a criteria text is refused. -/
inductive ParseError where
  /-- The text holds no expression. -/
  | emptyQuery
  /-- Something stands beside the wildcard. -/
  | wildcardNotAlone
  /-- A pair of parentheses encloses nothing. -/
  | emptyExpression
  /-- So many parentheses are still open; `-1` is a closing one too many. -/
  | unbalancedParentheses (depth : Int)
  /-- A parenthesis would nest deeper than the limit. -/
  | nestingTooDeep (limit : Nat)
  /-- A junction would combine more expressions than the limit. -/
  | tooManyTerms (limit : Nat)
  /-- The text ends within a property. -/
  | danglingProperty (property : String)
  /-- The text ends before the operator of the property. -/
  | missingOperator (property : String)
  /-- A keyword breaks off after the part read. -/
  | unexpectedOperator (part : String)
  /-- No keyword begins with the fragment. -/
  | unexpectedOperatorBeginning (fragment : String)
  /-- The operator lacks a character. -/
  | incompleteOperator (operator : Operator)
  /-- Something touches the operator. -/
  | missingWhitespace (operator : Operator)
  /-- The text ends before the operand. -/
  | missingOperand (operator : Operator)
  /-- The operand is not in double quotes. -/
  | expectedString (operator : Operator)
  /-- A backslash stands before a character that needs none. -/
  | unexpectedEscape (character : Char)
  /-- The text ends within double quotes. -/
  | unterminatedString (content : String)
  /-- The operand is neither `true` nor `false`. -/
  | expectedBoolean
  /-- No expression follows the junction. -/
  | missingJunctionOperand (junction : Junction)
  deriving DecidableEq

/-- The sentence that tells a cause. -/
def ParseError.message : ParseError → String
  | emptyQuery => "the query is empty"
  | wildcardNotAlone => "the wildcard must be used alone"
  | emptyExpression => "empty expressions are not allowed"
  | unbalancedParentheses depth =>
    "the parentheses are unbalanced (depth " ++ depth.repr ++ ")"
  | nestingTooDeep limit =>
    "parentheses nest deeper than the limit of " ++ limit.repr
  | tooManyTerms limit =>
    "more than " ++ limit.repr ++ " expressions are combined"
  | danglingProperty property =>
    "the property identifier is not a part of an expression: " ++ property
  | missingOperator property =>
    "no operator is applied to the property identifier: " ++ property
  | unexpectedOperator part => "unexpected operator: " ++ part
  | unexpectedOperatorBeginning fragment => "unexpected operator beginning: " ++ fragment
  | incompleteOperator operator => "incomplete operator: " ++ operator.keyword
  | missingWhitespace operator =>
    "whitespace is required around the operator: " ++ operator.keyword
  | missingOperand operator => "there is no operand for the operator: " ++ operator.keyword
  | expectedString operator =>
    "expecting a double-quoted string operand with the operator: " ++ operator.keyword
  | unexpectedEscape character => ("unexpected escape sequence: \\").push character
  | unterminatedString content =>
    "the double-quoted string is not terminated: \"" ++ content ++ "\""
  | expectedBoolean => "expecting either \"true\" or \"false\""
  | missingJunctionOperand junction => "expecting an expression after the " ++ junction.noun

end SearchCriteria
