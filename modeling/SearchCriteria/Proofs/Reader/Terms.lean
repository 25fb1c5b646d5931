import SearchCriteria.Proofs.Chain.Folding
import SearchCriteria.Proofs.Reader.Chain

/-!
# Counting expressions

Each junction in a chain has taken one more expression from the text, so the number of
junctions is also the number of expressions that have been left behind, and the limit on
junctions is one on the expressions of the query.
-/

namespace SearchCriteria.Reader

variable {limits : Limits}

/-- The junctions of the scope are counted, and there is room for the expression behind
them. -/
structure Scope.Counted (limits : Limits) (scope : Scope) : Prop where
  joined_eq : scope.chain.joined = Chain.waiting scope.chain.pending
  room : scope.chain.joined + 1 ≤ max 1 limits.maxTerms

/-- A junction for which there was room leaves room for its right side. -/
theorem Scope.Counted.push {scope : Scope} {operand : Query} (hcounted : scope.Counted limits)
    (hoperand : operand.IsExpression) (hroom : scope.chain.joined + 2 ≤ limits.maxTerms)
    (junction : Junction) (priority : Nat) :
    Scope.Counted limits { scope with chain := scope.chain.push operand junction priority } := by
  have hjoined := hcounted.joined_eq
  have hleaf := hoperand.leaves_eq
  constructor
  · simp only [Chain.joined_push, Chain.waiting_push, hleaf]
    omega
  · simp only [Chain.joined_push]
    omega

/-- At the end of the text the query has one expression more than there are junctions. -/
theorem Scope.Counted.leaves_le {scope : Scope} {operand query : Query}
    (hcounted : scope.Counted limits) (hoperand : operand.IsExpression)
    (hfinish : scope.finish operand = .ok query) : query.leaves ≤ max 1 limits.maxTerms := by
  have hjoined := hcounted.joined_eq
  have hroom := hcounted.room
  have hleaf := hoperand.leaves_eq
  obtain ⟨-, rfl⟩ := Scope.finish_eq_ok hfinish
  rw [Chain.leaves_complete]
  omega

/-- The junctions of the state are counted. -/
def State.Counted (limits : Limits) : State → Prop
  | start _ => True
  | wildcard => True
  | inClause _ scope => scope.Counted limits
  | afterOperand _ scope => scope.Counted limits
  | inJunction _ _ scope => scope.Counted limits
  | afterJunction _ scope => scope.Counted limits

namespace State

/-- Every reading from the start counts the junctions of its chain, whatever the depth. -/
theorem chain_counted_of_run {text : List Char} {state : State}
    (hrun : (start 0).run limits text = .ok state) (depth : Nat) :
    Scope.Counted limits ⟨state.chain, depth⟩ := by
  have hempty : Scope.Counted limits ⟨Chain.empty, depth⟩ :=
    ⟨rfl, Nat.le_max_left 1 limits.maxTerms⟩
  refine chain_induction (motive := fun chain => Scope.Counted limits ⟨chain, depth⟩) hempty ?_ hrun
  intro chain operand place junction hcounted hoperand hroom _
  exact hcounted.push hoperand hroom junction _

/-- Every reading from the start counts its junctions. -/
theorem counted_of_run {text : List Char} {state : State}
    (hrun : (start 0).run limits text = .ok state) : state.Counted limits := by
  have hcounted := chain_counted_of_run hrun state.depth
  cases state with
  | start depth => trivial
  | wildcard => trivial
  | _ => exact hcounted

/-- The query at the end of the text has no more expressions than the limit admits. -/
theorem leaves_le_of_run {text : List Char} {state : State} {query : Query}
    (hrun : (start 0).run limits text = .ok state) (hfinish : state.finish = .ok query) :
    query.leaves ≤ max 1 limits.maxTerms := by
  have hconsistent := consistent_of_run hrun
  have hcounted := counted_of_run hrun
  rcases State.finish_eq_ok hfinish with ⟨rfl, rfl⟩ | ⟨operand, scope, rfl, hscope⟩ |
    ⟨clause, operand, scope, rfl, hclause, hscope⟩
  · exact Nat.le_max_left 1 limits.maxTerms
  · exact Scope.Counted.leaves_le hcounted hconsistent.1 hscope
  · exact Scope.Counted.leaves_le hcounted (Clause.isExpression_of_finish hclause) hscope

end State

end SearchCriteria.Reader
