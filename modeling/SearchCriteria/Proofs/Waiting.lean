import SearchCriteria.Proofs.Chain.Ordering
import SearchCriteria.Proofs.Reader.Terms

/-!
# Waiting junctions

A parenthesis that closes leaves the junctions inside of it on the chain, with priorities of
places that the reader has left. Still the chain is in order in every state: only a push changes
it, and each push folds what would be out of order. So the limit on parentheses bounds how many
junctions wait, and the limit on expressions bounds how many have been read.
-/

namespace SearchCriteria

open Reader

/-- The wildcard is no leaf of a relational expression. -/
theorem Query.IsExpression.allResults_notMem {query : Query} (hquery : query.IsExpression) :
    allResults ∉ query.leafList := by
  obtain ⟨property, relation, rfl⟩ := hquery
  simp [leafList]

namespace Reader

variable {limits : Limits}

namespace State

variable {text : List Char} {state : State}

/-- In every reading the waiting junctions bind tighter and tighter. -/
theorem increasing_of_run (hrun : (start 0).run limits text = .ok state) :
    Chain.Increasing state.chain.pending := by
  have hempty : Chain.Increasing Chain.empty.pending := List.Pairwise.nil
  refine chain_induction (motive := fun chain => Chain.Increasing chain.pending) hempty ?_ hrun
  intro chain operand depth junction hincreasing _ _ _
  exact hincreasing.push operand junction _

/-- In every reading the waiting junctions have the priorities of places that the limit on
parentheses admits. -/
theorem priced_of_run (hrun : (start 0).run limits text = .ok state) :
    Chain.Priced limits.maxNestingDepth state.chain.pending := by
  have hempty : Chain.Priced limits.maxNestingDepth Chain.empty.pending := List.forall_mem_nil _
  refine chain_induction
    (motive := fun chain => Chain.Priced limits.maxNestingDepth chain.pending) hempty ?_ hrun
  intro chain operand depth junction hpriced _ _ hdepth
  exact hpriced.push hdepth operand junction

/-- In every reading the wildcard is joined with nothing. -/
theorem withoutWildcard_of_run (hrun : (start 0).run limits text = .ok state) :
    Chain.WithoutWildcard state.chain.pending := by
  have hempty : Chain.WithoutWildcard Chain.empty.pending := List.forall_mem_nil _
  refine chain_induction (motive := fun chain => Chain.WithoutWildcard chain.pending) hempty ?_ hrun
  intro chain operand depth junction hwithout hoperand _ _
  exact hwithout.push hoperand.allResults_notMem junction _

end State

/-- Every text that a reader takes leads to a chain whose junctions bind tighter and tighter and
are all counted, with no more of them waiting, and no more read, than the limits admit. -/
theorem chain_invariant_of_feed {text : String} {reader : Reader}
    (hfeed : (Reader.new limits).feed text = .ok reader) :
    reader.state.chain.Invariant limits := by
  obtain ⟨state, hrun, hreader⟩ := exists_of_bind_eq_ok hfeed
  obtain rfl := Except.ok.inj hreader
  have hincreasing := State.increasing_of_run hrun
  have hcounted := State.chain_counted_of_run hrun state.depth
  have hjoined : state.chain.joined = Chain.waiting state.chain.pending := hcounted.joined_eq
  have hroom : state.chain.joined + 1 ≤ max 1 limits.maxTerms := hcounted.room
  exact
    { increasing := hincreasing
      joined_eq := by rw [hjoined, Chain.waiting_eq]
      joined_le := Nat.le_sub_of_add_le hroom
      no_wildcard := State.withoutWildcard_of_run hrun
      length_le := hincreasing.length_le (State.priced_of_run hrun) }

/-- Both limits are reached: four junctions wait, and one more has been folded to the left side
of the first of them. -/
theorem chain_invariant_of_feed_full :
    let chain : Chain :=
      { pending :=
          [⟨.relational "e" (.compare .lessThan ""), .and, 5⟩,
            ⟨.relational "d" (.compare .lessThan ""), .or, 4⟩,
            ⟨.relational "c" (.compare .lessThan ""), .and, 2⟩,
            ⟨.joined .and (.relational "a" (.compare .lessThan ""))
              (.relational "b" (.compare .lessThan "")), .or, 1⟩]
        joined := 5 }
    (Reader.new ⟨1, 6⟩).feed
        "(a < \"\" and b < \"\") or c < \"\" and (d < \"\" or e < \"\" and " =
      .ok ⟨⟨1, 6⟩, .afterJunction .and ⟨chain, 1⟩⟩ ∧
      chain.joined = max 1 6 - 1 ∧ chain.pending.length = 2 * (1 + 1) ∧
      chain.Invariant ⟨1, 6⟩ := by
  intro chain
  have hfeed : (Reader.new ⟨1, 6⟩).feed
      "(a < \"\" and b < \"\") or c < \"\" and (d < \"\" or e < \"\" and " =
        .ok ⟨⟨1, 6⟩, .afterJunction .and ⟨chain, 1⟩⟩ := rfl
  exact ⟨hfeed, rfl, rfl, chain_invariant_of_feed hfeed⟩

end Reader

end SearchCriteria
