import SearchCriteria.Proofs.Chain.Ordering
import SearchCriteria.Proofs.Reader.Consistency
import SearchCriteria.Reader.Trace

/-!
# The chain of a reader

A reader changes its chain only where a junction begins, and there it pushes the junction behind
a single expression. So what an empty chain has and such a push keeps is an invariant of every
reading.
-/

namespace SearchCriteria.Reader

variable {limits : Limits}

namespace State

/-- Each move from a consistent state leaves the chain as it is or pushes a junction for which
there is room. -/
theorem Moves.chain_eq_or_push {state next : State} {c : Char}
    (hconsistent : state.Consistent limits) (hmoves : Moves limits state c next) :
    next.chain = state.chain ∨
      ∃ operand junction depth, Query.IsExpression operand ∧
        state.chain.joined + 2 ≤ limits.maxTerms ∧ depth ≤ limits.maxNestingDepth ∧
        next.chain = state.chain.push operand junction (junction.priority depth) := by
  induction hmoves with
  | begin hawaits => cases hawaits <;> exact .inl rfl
  | ended hclause _ ih => exact ih ⟨hconsistent.1.moves hclause, hconsistent.2⟩
  | junction _ hroom => exact .inr ⟨_, _, _, hconsistent.1, hroom, hconsistent.2, rfl⟩
  | _ => exact .inl rfl

/-- What holds of the empty chain and is kept by each junction that is pushed holds of the chain
of every reading. -/
theorem chain_induction {motive : Chain → Prop} (hempty : motive Chain.empty)
    (hpush : ∀ {chain : Chain} {operand : Query} {depth : Nat} (junction : Junction),
      motive chain → operand.IsExpression → chain.joined + 2 ≤ limits.maxTerms →
        depth ≤ limits.maxNestingDepth →
        motive (chain.push operand junction (junction.priority depth)))
    {text : List Char} {state : State} (hrun : (start 0).run limits text = .ok state) :
    motive state.chain := by
  have hstart : (start 0).Consistent limits ∧ motive (start 0).chain := ⟨Nat.zero_le _, hempty⟩
  have hboth : state.Consistent limits ∧ motive state.chain := by
    refine run_invariant (motive := fun state => state.Consistent limits ∧ motive state.chain)
      ?_ hstart hrun
    rintro state next c ⟨hconsistent, hchain⟩ hmoves
    refine ⟨hconsistent.moves hmoves, ?_⟩
    rcases hmoves.chain_eq_or_push hconsistent with hsame | ⟨operand, junction, depth, hoperand,
      hroom, hdepth, hpushed⟩
    · rw [hsame]
      exact hchain
    · rw [hpushed]
      exact hpush junction hchain hoperand hroom hdepth
  exact hboth.2

end State

end SearchCriteria.Reader
