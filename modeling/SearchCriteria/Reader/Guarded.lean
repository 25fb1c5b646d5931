import Mathlib.Algebra.Ring.Nat
import Mathlib.Data.Nat.PSub
import SearchCriteria.Chain.Weakest
import SearchCriteria.Reader

/-!
# Reading with guarded operations

Some operations of a reader have a result in some states only. A word has no letters behind its
end, no number stands before zero, a counter has 64 bits, and `exists` takes no text. Here
reading fails where such an operation has no result, instead of going on with some other one.
-/

namespace SearchCriteria

/-- The next number of a counter, as long as there is one. -/
def counterAfter? (count : Nat) : Option Nat :=
  if count + 1 < 2 ^ 64 then some (count + 1) else none

/-- Lets a junction wait, as long as junctions can be counted. -/
def Chain.push? (chain : Chain) (operand : Query) (junction : Junction) (priority : Nat) :
    Option Chain :=
  (counterAfter? chain.joined).map fun joined =>
    { chain.push operand junction priority with joined }

/-- Lets all junctions of a sequence wait, as long as they can be counted, and gives them its
last expression. -/
def Chain.joinAll? (chain : Chain) (first : Query) : List Link → Option Query
  | [] => some (chain.complete first)
  | link :: rest =>
    (chain.push? first link.junction link.priority).bind (·.joinAll? link.operand rest)

namespace Reader

/-- The letters of a word before a place in it. -/
def lettersBefore? (word : List Char) (place : Nat) : Option (List Char) :=
  if place ≤ word.length then some (word.take place) else none

/-- The letters of a word behind a place in it. -/
def lettersBehind? (word : List Char) (place : Nat) : Option (List Char) :=
  if place ≤ word.length then some (word.drop place) else none

/-- One more character of a keyword. -/
def stepKeyword? (keyword : List Char) (matched : Nat) (c : Char) :
    Option (Except ParseError (Option Nat)) :=
  if matched = keyword.length then
    some (if isSeparator c then .ok none
      else .error (.unexpectedOperatorBeginning ((String.ofList keyword).push c)))
  else do
    let rest ← lettersBehind? keyword matched
    if rest.head? = some c then return .ok (some (matched + 1))
    let part ← lettersBefore? keyword matched
    return .error (if isSeparator c then .unexpectedOperator (String.ofList part)
      else .unexpectedOperatorBeginning ((String.ofList part).push c))

/-- Why a keyword that ends after its first `matched` characters is refused. -/
def brokenKeyword? (keyword : List Char) (matched : Nat) : Option ParseError :=
  (lettersBefore? keyword matched).map fun part => .unexpectedOperator (String.ofList part)

namespace Clause

/-- One more character within double quotes. -/
def stepText? (property : String) (operator : Operator) (content : String) (escaped : Bool)
    (c : Char) : Option (Except ParseError Outcome) :=
  if escaped = false ∧ c = '"' then
    (operator.withText content).map fun relation => .ok (.closed (.relational property relation))
  else some (stepText property operator content escaped c)

/-- One more character of a truth value. -/
def stepFlag? (property : String) (value : Bool) (matched : Nat) (c : Char) :
    Option (Except ParseError Outcome) :=
  if matched = (flagLiteral value).length then some (stepFlag property value matched c)
  else
    (lettersBehind? (flagLiteral value).toList matched).map fun rest =>
      if rest.head? = some c then .ok (.more (.inFlag property value (matched + 1)))
      else .error .expectedBoolean

/-- One more character of a clause. -/
def step? (c : Char) : Clause → Option (Except ParseError Outcome)
  | inKeyword property operator matched =>
    (stepKeyword? operator.keyword.toList matched c).map fun
      | .ok (some matched) => .ok (.more (.inKeyword property operator matched))
      | .ok none => .ok (.more (.beforeOperand property operator true))
      | .error cause => .error cause
  | inText property operator content escaped => stepText? property operator content escaped c
  | inFlag property value matched => stepFlag? property value matched c
  | clause => some (clause.step c)

/-- What a clause is at the end of the text. -/
def finish? : Clause → Option (Except ParseError Query)
  | inKeyword _ operator matched =>
    if matched = operator.keyword.length then some (.error (.missingOperand operator))
    else (brokenKeyword? operator.keyword.toList matched).map .error
  | clause => some clause.finish

end Clause

/-- The first letter of a junction after `operand`. -/
def beginJunction? (limits : Limits) (junction : Junction) (operand : Query) (scope : Scope) :
    Option (Except ParseError State) :=
  if limits.maxTerms < scope.chain.joined + 2 then some (.error (.tooManyTerms limits.maxTerms))
  else
    (scope.chain.push? operand junction (junction.priority scope.depth)).map fun chain =>
      .ok (.inJunction junction 1 { scope with chain })

/-- One more character after a whole expression. -/
def stepAfterOperand? (limits : Limits) (operand : Query) (scope : Scope) (c : Char) :
    Option (Except ParseError State) :=
  if isSeparator c then some (.ok (.afterOperand operand scope))
  else if c = ')' then
    if scope.depth = 0 then some (.error (.unbalancedParentheses (-1)))
    else scope.depth.ppred.map fun depth => .ok (.afterOperand operand { scope with depth })
  else if c = 'a' then beginJunction? limits .and operand scope
  else if c = 'o' then beginJunction? limits .or operand scope
  else some (.error (.unexpectedOperatorBeginning (String.singleton c)))

/-- One more character of a text. -/
def State.step? (limits : Limits) (state : State) (c : Char) :
    Option (Except ParseError State) :=
  match state with
  | inClause clause scope =>
    (clause.step? c).bind fun
      | .ok (.more clause) => some (.ok (.inClause clause scope))
      | .ok (.closed operand) => some (.ok (.afterOperand operand scope))
      | .ok (.ended operand) => stepAfterOperand? limits operand scope c
      | .error cause => some (.error cause)
  | afterOperand operand scope => stepAfterOperand? limits operand scope c
  | inJunction junction matched scope =>
    (stepKeyword? junction.keyword.toList matched c).map fun
      | .ok (some matched) => .ok (.inJunction junction matched scope)
      | .ok none => .ok (.afterJunction junction scope)
      | .error cause => .error cause
  | state => some (state.step limits c)

/-- The query that a text has told by its end. -/
def State.finish? : State → Option (Except ParseError Query)
  | inClause clause scope => clause.finish?.map fun result => result.bind scope.finish
  | inJunction junction matched _ =>
    if matched < junction.keyword.length then
      (brokenKeyword? junction.keyword.toList matched).map .error
    else some (.error (.missingJunctionOperand junction))
  | state => some state.finish

end Reader

end SearchCriteria
