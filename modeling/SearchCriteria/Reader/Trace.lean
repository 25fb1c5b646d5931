import SearchCriteria.Reader

/-!
# What a reader does with each character

The trace of a reading tells the state before each character. It shows which
parentheses group expressions, which characters stand in quotes, and how much of
the limits is used.
-/

namespace SearchCriteria.Reader

/-- The parentheses that are open. -/
def State.depth : State → Nat
  | start depth => depth
  | wildcard => 0
  | inClause _ scope => scope.depth
  | afterOperand _ scope => scope.depth
  | inJunction _ _ scope => scope.depth
  | afterJunction _ scope => scope.depth

/-- The junctions that have begun. -/
def State.joined : State → Nat
  | start _ => 0
  | wildcard => 0
  | inClause _ scope => scope.chain.joined
  | afterOperand _ scope => scope.chain.joined
  | inJunction _ _ scope => scope.chain.joined
  | afterJunction _ scope => scope.chain.joined

/-- The chain of the junctions that have begun; none has before the first expression. -/
def State.chain : State → Chain
  | start _ => Chain.empty
  | wildcard => Chain.empty
  | inClause _ scope => scope.chain
  | afterOperand _ scope => scope.chain
  | inJunction _ _ scope => scope.chain
  | afterJunction _ scope => scope.chain

/-- Whether the next character belongs to a text in double quotes, or ends it. -/
def State.inQuotes : State → Bool
  | inClause (.inText ..) _ => true
  | _ => false

/-- Whether a parenthesis here encloses expressions. -/
def State.mayGroup : State → Bool
  | start _ => true
  | afterJunction _ _ => true
  | _ => false

/-- Each character with the state before it, up to the first that is refused. -/
def State.trace (limits : Limits) (state : State) : List Char → List (State × Char)
  | [] => []
  | c :: rest =>
    (state, c) :: match state.step limits c with
      | .ok next => next.trace limits rest
      | .error _ => []

/-- The opening parentheses that enclose expressions. -/
def groupCount (limits : Limits) (text : List Char) : Nat :=
  ((State.start 0).trace limits text).countP fun (state, c) => state.mayGroup && c = '('

/-- The text without the separators that stand outside of quotes. -/
def condensed (limits : Limits) (text : List Char) : List Char :=
  (((State.start 0).trace limits text).filter fun (state, c) =>
    state.inQuotes || !isSeparator c).map (·.2)

end SearchCriteria.Reader
