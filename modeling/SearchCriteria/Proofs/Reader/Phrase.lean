import SearchCriteria.Proofs.Chain.Folding
import SearchCriteria.Proofs.Reader.Expression

/-!
# Reading a phrase

Where a phrase of the grammar may begin, a reader with enough room takes the whole of
its text. Afterwards the chain may hold junctions of the phrase that still wait, but to
every junction that may follow, the chain and the last operand amount to the query of
the phrase in the chain that was there before.
-/

namespace SearchCriteria.Reader.State

open Grammar

variable {limits : Limits}

/-- `next.Delivers closed floor scope query operand chain`: the operand has ended with this
chain, all expressions of the query have been counted, and down to the floor the operand
folds like the query in the chain of the scope. -/
structure Delivers (next : State) (closed : Bool) (floor : Nat) (scope : Scope)
    (query : Query) (operand : Query) (chain : Chain) : Prop where
  ends : next.Ends closed operand ⟨chain, scope.depth⟩
  joined_eq : chain.joined + 1 = scope.chain.joined + query.leaves
  reduce_eq : ∀ low ≤ floor,
    Chain.reduce low chain.pending operand = Chain.reduce low scope.chain.pending query

/-- A junction with room for one more expression is read and waits in the chain. -/
theorem run_junction {operand : Query} {scope : Scope} (junction : Junction) {gap : List Char}
    (hroom : scope.chain.joined + 2 ≤ limits.maxTerms) (hgap : Gap gap) :
    (afterOperand operand scope).run limits (junction.keyword.toList ++ gap) =
      .ok (.afterJunction junction { scope with
        chain := scope.chain.push operand junction (junction.priority scope.depth) }) := by
  have hadmitted : ¬ limits.maxTerms < scope.chain.joined + 2 := by omega
  have hkeyword : (afterOperand operand scope).run limits junction.keyword.toList =
      .ok (.inJunction junction junction.keyword.toList.length { scope with
        chain := scope.chain.push operand junction (junction.priority scope.depth) }) := by
    cases junction with
    | and =>
      have hletter : (afterOperand operand scope).step limits 'a' =
          .ok (.inJunction .and 1 { scope with
            chain := scope.chain.push operand .and (Junction.and.priority scope.depth) }) := by
        simp [step, stepAfterOperand, beginJunction, hadmitted, isSeparator, separators]
      exact run_cons_of_step hletter ['n', 'd']
    | or =>
      have hletter : (afterOperand operand scope).step limits 'o' =
          .ok (.inJunction .or 1 { scope with
            chain := scope.chain.push operand .or (Junction.or.priority scope.depth) }) := by
        simp [step, stepAfterOperand, beginJunction, hadmitted, isSeparator, separators]
      exact run_cons_of_step hletter ['r']
  rw [run_append_of_run hkeyword]
  apply run_gap hgap
  · intro c hc
    simp [step, stepKeyword, hc]
  · intro c hc
    rw [step, stepAfterJunction, if_pos hc]

/-- A group delivers what the phrase inside of it delivers one parenthesis deeper. -/
theorem Delivers.close (limits : Limits) (level : Level) {state : State} {closed : Bool}
    {scope : Scope} {query operand : Query} {chain : Chain} {blank : List Char}
    (hdelivers : state.Delivers closed (Level.disjunction.floor (scope.depth + 1))
      { scope with depth := scope.depth + 1 } query operand chain) (hblank : Blank blank) :
    ∃ next : State, state.run limits (blank ++ [')']) = .ok next ∧
      next.Delivers true (level.floor scope.depth) scope query operand chain := by
  obtain ⟨hends, hjoined, hreduce⟩ := hdelivers
  obtain ⟨next, hrun, hnext⟩ := hends.run_blank limits hblank
  refine ⟨.afterOperand operand ⟨chain, scope.depth⟩, ?_, .closed _ _, hjoined, ?_⟩
  · rw [run_append_of_run hrun, run_cons_of_step hnext.step_close, run_nil]
  · intro low hlow
    apply hreduce
    rw [Level.floor_disjunction_succ]
    exact Nat.le_trans hlow (level.floor_le_term scope.depth)

/-- Behind the left side of a junction that is admitted, the chain holds the left side as
one query on top of what waited before. -/
theorem Delivers.push {state : State} {closed : Bool} {scope : Scope} {left operand : Query}
    {chain : Chain} {junction : Junction}
    (hdelivers : state.Delivers closed (junction.priority scope.depth) scope left operand chain)
    (hbelow : Chain.Below (junction.priority scope.depth) scope.chain.pending) :
    chain.push operand junction (junction.priority scope.depth) =
      ⟨⟨left, junction, junction.priority scope.depth⟩ :: scope.chain.pending,
        chain.joined + 1⟩ := by
  have hreduce := hdelivers.reduce_eq _ (Nat.le_refl _)
  rw [Chain.reduce_of_below hbelow] at hreduce
  simp only [Chain.push, hreduce]

/-- Where a phrase may begin and there is room for it, its text is read to the end. -/
theorem Awaits.run_outline {outline : Outline} {level : Level} {first : Bool} {state : State}
    {scope : Scope} (hfits : outline.Fits level first) (hawaits : state.Awaits first scope)
    (hbelow : Chain.Below (level.floor scope.depth) scope.chain.pending)
    (hdepth : scope.depth + outline.depth ≤ limits.maxNestingDepth)
    (hterms : scope.chain.joined + outline.query.leaves ≤ max 1 limits.maxTerms) :
    ∃ (next : State) (operand : Query) (chain : Chain),
      state.run limits outline.text = .ok next ∧
        next.Delivers outline.closed (level.floor scope.depth) scope outline.query operand
          chain := by
  induction outline generalizing level first state scope with
  | expression property gap relation gap' =>
    obtain ⟨next, hrun, hends⟩ := hawaits.run_expression limits hfits
    exact ⟨next, _, scope.chain, hrun, hends, rfl, fun _ _ => rfl⟩
  | group blank inner blank' ih =>
    obtain ⟨hblank, hinner, hblank'⟩ := hfits
    rw [Outline.depth] at hdepth
    have hroom : scope.depth < limits.maxNestingDepth := by omega
    obtain ⟨opened, hopen, hopened⟩ := hawaits.step_open hroom
    have hbelow' : Chain.Below (Level.disjunction.floor (scope.depth + 1)) scope.chain.pending := by
      rw [Level.floor_disjunction_succ]
      exact hbelow.mono (level.floor_le_term scope.depth)
    obtain ⟨last, operand, chain, hrun, hdelivers⟩ :=
      ih hinner hopened hbelow' (by simp only; omega) hterms
    obtain ⟨next, hclose, hnext⟩ := hdelivers.close limits level hblank'
    refine ⟨next, operand, chain, ?_, hnext⟩
    rw [Outline.text, run_cons_of_step hopen, List.append_assoc, List.append_assoc,
      run_append_of_run (hopened.run_blank hblank), run_append_of_run hrun, hclose]
  | joined junction left blank gap right ihleft ihright =>
    obtain ⟨hadmits, hleft, hblank, hclosed, hgap, hright⟩ := hfits
    have hright_pos := right.query.leaves_pos
    have hleft_pos := left.query.leaves_pos
    have hfloor := Level.floor_le_priority hadmits scope.depth
    simp only [Outline.depth] at hdepth
    simp only [Outline.query, Query.leaves] at hterms
    have hbelow' := hbelow.mono hfloor
    have htighter := Level.priority_lt_floor_rightOf junction scope.depth
    -- The left side is read up to the junction, which finds it as one query on the chain.
    obtain ⟨last, operand, chain, hrun, hdelivers⟩ :=
      ihleft hleft hawaits (by simpa using hbelow') (by omega) (by omega)
    rw [Level.floor_ofJunction] at hdelivers
    have hjoined := hdelivers.joined_eq
    have hbetween : last.run limits blank = .ok (.afterOperand operand ⟨chain, scope.depth⟩) :=
      hdelivers.ends.run_blank_closed hblank hclosed
    have hroom : chain.joined + 2 ≤ limits.maxTerms := by omega
    let between : Scope := ⟨⟨⟨left.query, junction, junction.priority scope.depth⟩ ::
      scope.chain.pending, chain.joined + 1⟩, scope.depth⟩
    have hjunction : (State.afterOperand operand ⟨chain, scope.depth⟩).run limits
        (junction.keyword.toList ++ gap) = .ok (.afterJunction junction between) := by
      rw [run_junction junction hroom hgap]
      simp only [hdelivers.push hbelow', between]
    -- The right side begins with the junction waiting below it.
    have hwaiting : Chain.Below ((Level.rightOf junction).floor scope.depth)
        between.chain.pending :=
      Chain.below_cons.mpr ⟨htighter, hbelow'.mono (Nat.le_of_lt htighter)⟩
    have hdepth' : between.depth + right.depth ≤ limits.maxNestingDepth := by
      simp only [between]
      omega
    have hterms' : between.chain.joined + right.query.leaves ≤ max 1 limits.maxTerms := by
      simp only [between]
      omega
    obtain ⟨next, operand', chain', hrun', hends', hjoined', hreduce'⟩ :=
      ihright hright (.afterJunction junction between) hwaiting hdepth' hterms'
    refine ⟨next, operand', chain', ?_, hends', ?_, ?_⟩
    · rw [Outline.text, List.append_assoc, List.append_assoc, List.append_assoc,
        run_append_of_run hrun, run_append_of_run hbetween, ← List.append_assoc,
        run_append_of_run hjunction, hrun']
    · have hcount : chain'.joined + 1 = chain.joined + 1 + right.query.leaves := hjoined'
      simp only [Outline.query, Query.leaves]
      omega
    · intro low hlow
      have hlow' : low ≤ junction.priority scope.depth := Nat.le_trans hlow hfloor
      rw [hreduce' low (Nat.le_trans hlow' (Nat.le_of_lt htighter))]
      exact Chain.reduce_cons_of_le hlow' _ _

end SearchCriteria.Reader.State
