import SearchCriteria.Query

/-!
# Chains of pending junctions

While the expressions of a query come in one by one, each junction waits for its
right side until a junction that binds no tighter, or the end, shows that this
side is complete. Priorities tell which of two junctions binds tighter.
-/

namespace SearchCriteria

/-- How tightly a junction binds that stands inside `depth` open parentheses. One
level of parentheses outweighs the difference between the two keywords. -/
def Junction.priority (junction : Junction) (depth : Nat) : Nat :=
  3 * depth + match junction with
    | .or => 1
    | .and => 2

/-- A junction that has its left side and waits for its right one. -/
structure Pending where
  left : Query
  junction : Junction
  priority : Nat

/-- The junctions whose right sides are still being read. -/
structure Chain where
  /-- The waiting junctions, the latest first. -/
  pending : List Pending := []
  /-- How many junctions have been pushed, waiting or not. -/
  joined : Nat := 0

namespace Chain

/-- The chain before the first junction. -/
def empty : Chain := {}

/-- Gives the operand to the latest waiting junctions as long as they bind at
least as tightly as `floor`. The result is the query so built and the junctions
that still wait. -/
def reduce (floor : Nat) : List Pending → Query → Query × List Pending
  | [], operand => (operand, [])
  | top :: rest, operand =>
    if floor ≤ top.priority then
      reduce floor rest (.joined top.junction top.left operand)
    else
      (operand, top :: rest)

/-- Lets a junction wait whose left side ends with `operand`. Junctions that bind
at least as tightly take the operand first, so equal ones group to the left. -/
def push (chain : Chain) (operand : Query) (junction : Junction) (priority : Nat) : Chain :=
  let (left, rest) := reduce priority chain.pending operand
  { pending := ⟨left, junction, priority⟩ :: rest
    joined := chain.joined + 1 }

/-- The query that results when `operand` is the last expression. -/
def complete (chain : Chain) (operand : Query) : Query :=
  (reduce 0 chain.pending operand).1

@[simp] theorem reduce_nil (floor : Nat) (operand : Query) :
    reduce floor [] operand = (operand, []) := rfl

/-- A junction that binds at least as tightly as the floor takes the operand. -/
theorem reduce_cons_of_le {floor : Nat} {top : Pending} (hle : floor ≤ top.priority)
    (rest : List Pending) (operand : Query) :
    reduce floor (top :: rest) operand =
      reduce floor rest (.joined top.junction top.left operand) := by
  rw [reduce, if_pos hle]

/-- A junction that binds looser than the floor goes on waiting. -/
theorem reduce_cons_of_lt {floor : Nat} {top : Pending} (hlt : top.priority < floor)
    (rest : List Pending) (operand : Query) :
    reduce floor (top :: rest) operand = (operand, top :: rest) := by
  rw [reduce, if_neg (Nat.not_le_of_lt hlt)]

@[simp] theorem complete_empty (operand : Query) : empty.complete operand = operand := rfl

@[simp] theorem joined_push (chain : Chain) (operand : Query) (junction : Junction)
    (priority : Nat) : (chain.push operand junction priority).joined = chain.joined + 1 := rfl

end Chain

end SearchCriteria
