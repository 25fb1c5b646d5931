import SearchCriteria.Chain
import SearchCriteria.Limits
import SearchCriteria.Reader.Clause

/-!
# Reading queries

A reader takes a criteria text one character at a time. It neither looks ahead
nor goes back: each character either moves it to its next state or is refused,
and at the end of the text the last state tells the query.
-/

namespace SearchCriteria

namespace Reader

/-- Where a relational expression stands. -/
structure Scope where
  /-- The junctions to its left. -/
  chain : Chain
  /-- The parentheses open around it. -/
  depth : Nat

/-- What has been read so far. -/
inductive State where
  /-- Before the first expression: only separators and opening parentheses. -/
  | start (depth : Nat)
  /-- After the wildcard. -/
  | wildcard
  /-- Within a relational expression. -/
  | inClause (clause : Clause) (scope : Scope)
  /-- After a whole expression; a junction or a closing parenthesis may follow. -/
  | afterOperand (operand : Query) (scope : Scope)
  /-- Within the keyword of a junction. -/
  | inJunction (junction : Junction) (matched : Nat) (scope : Scope)
  /-- After a junction, before its right side. -/
  | afterJunction (junction : Junction) (scope : Scope)

/-- The number of open parentheses after one more, if the limit admits it. -/
def openParenthesis (limits : Limits) (depth : Nat) : Except ParseError Nat :=
  if limits.maxNestingDepth ≤ depth then .error (.nestingTooDeep limits.maxNestingDepth)
  else .ok (depth + 1)

/-- The first letter of a junction after `operand`. The junction counts from its
first letter on, so one that would combine too many expressions is refused there. -/
def beginJunction (limits : Limits) (junction : Junction) (operand : Query) (scope : Scope) :
    Except ParseError State :=
  if limits.maxTerms < scope.chain.joined + 2 then .error (.tooManyTerms limits.maxTerms)
  else
    .ok (.inJunction junction 1
      { scope with chain := scope.chain.push operand junction (junction.priority scope.depth) })

/-- One more character before the first expression. -/
def stepStart (limits : Limits) (depth : Nat) (c : Char) : Except ParseError State :=
  if isSeparator c then .ok (.start depth)
  else if c = '*' then if depth = 0 then .ok .wildcard else .error .wildcardNotAlone
  else if c = '(' then .start <$> openParenthesis limits depth
  else if c = ')' then
    if depth = 0 then .error (.unbalancedParentheses (-1)) else .error .emptyExpression
  else .ok (.inClause (.inProperty (String.singleton c)) ⟨Chain.empty, depth⟩)

/-- One more character after a whole expression. -/
def stepAfterOperand (limits : Limits) (operand : Query) (scope : Scope) (c : Char) :
    Except ParseError State :=
  if isSeparator c then .ok (.afterOperand operand scope)
  else if c = ')' then
    if scope.depth = 0 then .error (.unbalancedParentheses (-1))
    else .ok (.afterOperand operand { scope with depth := scope.depth - 1 })
  else if c = 'a' then beginJunction limits .and operand scope
  else if c = 'o' then beginJunction limits .or operand scope
  else .error (.unexpectedOperatorBeginning (String.singleton c))

/-- One more character after a junction. -/
def stepAfterJunction (limits : Limits) (junction : Junction) (scope : Scope) (c : Char) :
    Except ParseError State :=
  if isSeparator c then .ok (.afterJunction junction scope)
  else if c = '(' then do
    let depth ← openParenthesis limits scope.depth
    return .afterJunction junction { scope with depth }
  else if c = ')' then .error (.missingJunctionOperand junction)
  else .ok (.inClause (.inProperty (String.singleton c)) scope)

/-- One more character of a text. -/
def State.step (limits : Limits) (state : State) (c : Char) : Except ParseError State :=
  match state with
  | start depth => stepStart limits depth c
  | wildcard => if isSeparator c then .ok .wildcard else .error .wildcardNotAlone
  | inClause clause scope =>
    match clause.step c with
    | .ok (.more clause) => .ok (.inClause clause scope)
    | .ok (.closed operand) => .ok (.afterOperand operand scope)
    | .ok (.ended operand) => stepAfterOperand limits operand scope c
    | .error cause => .error cause
  | afterOperand operand scope => stepAfterOperand limits operand scope c
  | inJunction junction matched scope =>
    match stepKeyword junction.keyword.toList matched c with
    | .ok (some matched) => .ok (.inJunction junction matched scope)
    | .ok none => .ok (.afterJunction junction scope)
    | .error cause => .error cause
  | afterJunction junction scope => stepAfterJunction limits junction scope c

/-- The query that ends with `operand`, if no parenthesis is open. -/
def Scope.finish (scope : Scope) (operand : Query) : Except ParseError Query :=
  if scope.depth = 0 then .ok (scope.chain.complete operand)
  else .error (.unbalancedParentheses scope.depth)

/-- The query that a text has told by its end. -/
def State.finish : State → Except ParseError Query
  | start _ => .error .emptyQuery
  | wildcard => .ok .allResults
  | inClause clause scope => clause.finish.bind scope.finish
  | afterOperand operand scope => scope.finish operand
  | inJunction junction matched _ =>
    if matched < junction.keyword.length then
      .error (brokenKeyword junction.keyword.toList matched)
    else .error (.missingJunctionOperand junction)
  | afterJunction junction _ => .error (.missingJunctionOperand junction)

/-- The state after all characters of a text. -/
def State.run (limits : Limits) (state : State) (text : List Char) : Except ParseError State :=
  text.foldlM (State.step limits) state

@[simp] theorem State.run_nil (limits : Limits) (state : State) :
    state.run limits [] = .ok state := rfl

theorem State.run_cons (limits : Limits) (state : State) (c : Char) (text : List Char) :
    state.run limits (c :: text) = (state.step limits c).bind (·.run limits text) := rfl

/-- A text may be taken in parts. -/
theorem State.run_append (limits : Limits) (state : State) (text more : List Char) :
    state.run limits (text ++ more) = (state.run limits text).bind (·.run limits more) :=
  List.foldlM_append

end Reader

/-- A reader that has taken a part of a text. -/
structure Reader where
  limits : Limits
  state : Reader.State

namespace Reader

/-- The reader before the first character. -/
def new (limits : Limits) : Reader := ⟨limits, .start 0⟩

/-- Takes one character. -/
def advance (reader : Reader) (c : Char) : Except ParseError Reader := do
  let state ← reader.state.step reader.limits c
  return { reader with state }

/-- Takes all characters of a text in order. -/
def feed (reader : Reader) (text : String) : Except ParseError Reader := do
  let state ← reader.state.run reader.limits text.toList
  return { reader with state }

/-- The query, at the end of the text. -/
def finish (reader : Reader) : Except ParseError Query := reader.state.finish

end Reader

/-- The query that a criteria text tells within the limits. -/
def Query.parse (limits : Limits) (text : String) : Except ParseError Query := do
  let reader ← (Reader.new limits).feed text
  reader.finish

/-- A text tells the query of the state after its characters. -/
theorem Query.parse_eq (limits : Limits) (text : String) :
    parse limits text =
      ((Reader.State.start 0).run limits text.toList).bind Reader.State.finish := by
  simp only [parse, Reader.feed, Reader.new, Reader.finish]
  cases (Reader.State.start 0).run limits text.toList <;> rfl

end SearchCriteria
