import SearchCriteria.Proofs.Acceptance
import SearchCriteria.Proofs.Reader.Refusal

/-!
# Unbalanced parentheses

A text whose parentheses are unbalanced is refused with a number. At the end of the text it is
the number of closing parentheses that are missing, and with as many of them the text is
accepted. Before the end a closing parenthesis is one too many, exactly where nothing or a whole
query stands before it.
-/

namespace SearchCriteria

open Grammar Reader

/-- No wildcard comes out of a chain that is given an expression. -/
theorem Chain.reduce_ne_allResults {floor : Nat} {pending : List Pending} {operand : Query}
    (hoperand : operand ≠ .allResults) : (reduce floor pending operand).1 ≠ .allResults := by
  induction pending generalizing operand with
  | nil => exact hoperand
  | cons top rest ih =>
    by_cases htop : floor ≤ top.priority
    · rw [reduce_cons_of_le htop]
      exact ih (by simp)
    · rw [reduce_cons_of_lt (Nat.lt_of_not_le htop)]
      exact hoperand

namespace Reader

variable {limits : Limits}

/-- No clause is told at its end to have unbalanced parentheses. -/
theorem Clause.finish_ne_unbalanced (clause : Clause) (depth : Int) :
    clause.finish ≠ .error (.unbalancedParentheses depth) := by
  intro hfinish
  cases clause with
  | afterSymbol property operator =>
    rw [finish] at hfinish
    split at hfinish <;> cases hfinish
  | inKeyword property operator matched =>
    rw [finish] at hfinish
    split at hfinish <;> cases hfinish
  | inFlag property value matched =>
    rw [finish] at hfinish
    split at hfinish <;> cases hfinish
  | _ => cases hfinish

namespace State

/-- As many parentheses as are open, and fewer, can be closed behind an operand. -/
theorem Ends.run_closings {state : State} {closed : Bool} {operand : Query} {chain : Chain}
    {depth count : Nat} (hends : state.Ends closed operand ⟨chain, depth + count⟩) :
    ∃ (next : State) (closed' : Bool),
      state.run limits (List.replicate count ')') = .ok next ∧
        next.Ends closed' operand ⟨chain, depth⟩ := by
  induction count generalizing state closed with
  | zero => exact ⟨state, closed, rfl, hends⟩
  | succ count ih =>
    obtain ⟨next, closed', hrun, hnext⟩ := ih (Ends.closed operand ⟨chain, depth + count⟩)
    exact ⟨next, closed', (run_cons_of_step hends.step_close _).trans hrun, hnext⟩

/-- What has ended in a consistent state is an expression and not the wildcard. -/
theorem Ends.operand_ne_allResults {state : State} {closed : Bool} {operand : Query}
    {scope : Scope} (hends : state.Ends closed operand scope)
    (hconsistent : state.Consistent limits) : operand ≠ .allResults := by
  cases hends with
  | flag => simp
  | closed =>
    obtain ⟨property, relation, rfl⟩ := hconsistent.1
    simp

/-- A character is refused for unbalanced parentheses only if it closes one behind an operand,
or before all of them, where none is open. -/
theorem Refuses.unbalanced {state : State} {c : Char} {depth : Int}
    (hrefuses : Refuses limits state c (.unbalancedParentheses depth))
    (hconsistent : state.Consistent limits) :
    depth = -1 ∧ c = ')' ∧
      (state = .start 0 ∨ ∃ closed operand chain, state.Ends closed operand ⟨chain, 0⟩) := by
  cases hrefuses with
  | closeFirst => exact ⟨rfl, rfl, .inl rfl⟩
  | close => exact ⟨rfl, rfl, .inr ⟨true, _, _, .closed _ _⟩⟩
  | ended hclause hrefuses =>
    have hends := hconsistent.ends_of_ended hclause
    cases hrefuses with
    | close => exact ⟨rfl, rfl, .inr ⟨false, _, _, hends⟩⟩
  | clause hclause => cases hclause with
    | keyword hbreaks => cases hbreaks
  | keyword hbreaks => cases hbreaks

/-- At the end of a text parentheses are unbalanced only behind an operand, by as many as are
open. -/
theorem exists_ends_of_finish_unbalanced {state : State} {depth : Int}
    (hfinish : state.finish = .error (.unbalancedParentheses depth)) :
    ∃ closed operand chain count, state.Ends closed operand ⟨chain, count⟩ ∧
      0 < count ∧ depth = count := by
  have hopen : ∀ (scope : Scope) (operand : Query),
      scope.finish operand = .error (.unbalancedParentheses depth) →
        0 < scope.depth ∧ depth = scope.depth := by
    intro scope operand hscope
    rw [Scope.finish] at hscope
    split at hscope
    case isTrue => cases hscope
    case isFalse hdepth =>
      exact ⟨Nat.pos_of_ne_zero hdepth,
        (ParseError.unbalancedParentheses.inj (Except.error.inj hscope)).symm⟩
  cases state with
  | start => cases hfinish
  | wildcard => cases hfinish
  | inClause clause scope =>
    rw [finish] at hfinish
    cases hclause : clause.finish with
    | error cause =>
      rw [hclause] at hfinish
      obtain rfl := Except.error.inj hfinish
      exact absurd hclause (clause.finish_ne_unbalanced depth)
    | ok operand =>
      rw [hclause] at hfinish
      obtain ⟨property, value, rfl, rfl⟩ := Clause.finish_eq_ok hclause
      rw [String.length_toList]
      obtain ⟨hpos, hdepth⟩ := hopen scope _ hfinish
      exact ⟨false, _, scope.chain, scope.depth, .flag property value scope, hpos, hdepth⟩
  | afterOperand operand scope =>
    obtain ⟨hpos, hdepth⟩ := hopen scope operand hfinish
    exact ⟨true, operand, scope.chain, scope.depth, .closed operand scope, hpos, hdepth⟩
  | inJunction junction matched scope =>
    rw [finish] at hfinish
    split at hfinish <;> cases hfinish
  | afterJunction => cases hfinish

/-- A query that is not the wildcard is told behind an operand, with no parenthesis open. -/
theorem exists_ends_of_finish_ok {state : State} {query : Query}
    (hfinish : state.finish = .ok query) (hquery : query ≠ .allResults) :
    ∃ closed operand chain, state.Ends closed operand ⟨chain, 0⟩ := by
  rcases finish_eq_ok hfinish with ⟨-, hwildcard⟩ | ⟨operand, ⟨chain, depth⟩, rfl, hscope⟩ |
    ⟨clause, operand, ⟨chain, depth⟩, rfl, hclause, hscope⟩
  · exact absurd hwildcard hquery
  · obtain rfl : depth = 0 := (Scope.finish_eq_ok hscope).1
    exact ⟨true, operand, chain, .closed operand _⟩
  · obtain rfl : depth = 0 := (Scope.finish_eq_ok hscope).1
    obtain ⟨property, value, rfl, rfl⟩ := Clause.finish_eq_ok hclause
    rw [String.length_toList]
    exact ⟨false, _, chain, .flag property value _⟩

end State

end Reader

namespace Query

variable {limits : Limits} {text : String}

/-- A text that is refused at a character has the cause of that character. -/
theorem parse_eq_error_of_step {before behind : List Char} {c : Char} {state : State}
    {cause : ParseError} (htext : text.toList = before ++ c :: behind)
    (hrun : (State.start 0).run limits before = .ok state)
    (hstep : state.step limits c = .error cause) : parse limits text = .error cause := by
  have hrefused : (State.start 0).run limits text.toList = .error cause :=
    State.run_eq_error_iff.mpr ⟨before, c, behind, state, htext, hrun, hstep⟩
  rw [parse_eq, hrefused]
  rfl

/-- Unless a parenthesis is one too many, a text with unbalanced parentheses has been read to its
end, where as many are open behind an operand as the cause tells. -/
theorem exists_ends_of_parse_unbalanced {depth : Int}
    (hparse : parse limits text = .error (.unbalancedParentheses depth)) (hdepth : depth ≠ -1) :
    ∃ (state : State) (closed : Bool) (operand : Query) (chain : Chain) (count : Nat),
      (State.start 0).run limits text.toList = .ok state ∧
        state.Ends closed operand ⟨chain, count⟩ ∧ 0 < count ∧ depth = count := by
  rw [parse_eq] at hparse
  cases hrun : (State.start 0).run limits text.toList with
  | error cause =>
    rw [hrun] at hparse
    obtain rfl := Except.error.inj hparse
    obtain ⟨before, c, behind, last, -, hbefore, hlast⟩ := State.run_eq_error_iff.mp hrun
    have hconsistent := State.consistent_of_run hbefore
    exact absurd ((State.refuses_of_step hlast).unbalanced hconsistent).1 hdepth
  | ok state =>
    rw [hrun] at hparse
    obtain ⟨closed, operand, chain, count, hends, hcount⟩ :=
      State.exists_ends_of_finish_unbalanced hparse
    exact ⟨state, closed, operand, chain, count, rfl, hends, hcount⟩

/-- A text with closing parentheses missing is refused for those that are still missing when some
are added, is accepted with all of them, and has one too many with more. -/
theorem parse_append_closings {state : State} {closed : Bool} {operand : Query} {chain : Chain}
    {depth : Nat} (hrun : (State.start 0).run limits text.toList = .ok state)
    (hends : state.Ends closed operand ⟨chain, depth⟩) (count : Nat) :
    parse limits (text ++ String.ofList (List.replicate count ')')) =
      if count < depth then .error (.unbalancedParentheses (depth - count : Nat))
      else if count = depth then .ok (chain.complete operand)
      else .error (.unbalancedParentheses (-1)) := by
  have htext : (text ++ String.ofList (List.replicate count ')')).toList =
      text.toList ++ List.replicate count ')' := by
    rw [String.toList_append, String.toList_ofList]
  by_cases hle : count ≤ depth
  · have hsplit : depth = depth - count + count := (Nat.sub_add_cancel hle).symm
    rw [hsplit] at hends
    obtain ⟨next, closed', hclosings, hnext⟩ := hends.run_closings
    rw [parse_eq, htext, State.run_append_of_run hrun, hclosings]
    have hfinish : State.finish next = Scope.finish ⟨chain, depth - count⟩ operand := hnext.finish
    by_cases hlt : count < depth
    · have hopen : depth - count ≠ 0 := by omega
      rw [if_pos hlt]
      exact hfinish.trans (if_neg hopen)
    · have hnone : depth - count = 0 := by omega
      have heq : count = depth := by omega
      rw [if_neg hlt, if_pos heq]
      exact hfinish.trans (if_pos hnone)
  · have hzero : depth = 0 + depth := (Nat.zero_add depth).symm
    rw [hzero] at hends
    obtain ⟨next, closed', hclosings, hnext⟩ := hends.run_closings
    have hmore : List.replicate count ')' =
        List.replicate depth ')' ++ ')' :: List.replicate (count - depth - 1) ')' := by
      rw [← List.replicate_succ, List.replicate_append_replicate]
      congr 1
      omega
    rw [hmore, ← List.append_assoc, ← hmore] at htext
    have hbefore : (State.start 0).run limits (text.toList ++ List.replicate depth ')') =
        .ok next := by
      rw [State.run_append_of_run hrun, hclosings]
    have hlt : ¬ count < depth := by omega
    have hne : count ≠ depth := by omega
    rw [if_neg hlt, if_neg hne]
    exact parse_eq_error_of_step htext hbefore hnext.step_close_eq_error

/-- A closing parenthesis that is one too many stands behind separators only, or behind an operand
that is a whole expression and is enclosed in no parentheses. -/
theorem exists_ends_of_run_unopened {chars : List Char}
    (hrun : (State.start 0).run limits chars = .error (.unbalancedParentheses (-1))) :
    ∃ before behind, chars = before ++ ')' :: behind ∧
      (Blank before ∨ ∃ (state : State) (closed : Bool) (operand : Query) (chain : Chain),
        (State.start 0).run limits before = .ok state ∧ state.Ends closed operand ⟨chain, 0⟩ ∧
          operand ≠ .allResults) := by
  obtain ⟨before, c, behind, last, rfl, hbefore, hlast⟩ := State.run_eq_error_iff.mp hrun
  have hconsistent := State.consistent_of_run hbefore
  obtain ⟨-, rfl, hstate⟩ := (State.refuses_of_step hlast).unbalanced hconsistent
  refine ⟨before, behind, rfl, ?_⟩
  rcases hstate with rfl | ⟨closed, operand, chain, hends⟩
  · -- The start of a text is left at once by anything but a separator.
    have hlead : Lead limits true 0 [] before := State.reads_of_run hbefore
    rcases hlead.opened_or_blank (Chain.below_nil _) with ⟨-, -, -, hblank⟩ |
      ⟨_, _, depth, hdepth, -⟩
    · exact .inl hblank
    · cases hdepth
  · exact .inr ⟨last, closed, operand, chain, hbefore, hends,
      hends.operand_ne_allResults hconsistent⟩

/-- A parenthesis closes where none is open exactly if a text in front of it holds separators
only or tells a query other than the wildcard. -/
theorem parse_unopened_iff :
    parse limits text = .error (.unbalancedParentheses (-1)) ↔
      ∃ part rest, text = part ++ ")" ++ rest ∧
        (Blank part.toList ∨ ∃ query, parse limits part = .ok query ∧ query ≠ .allResults) := by
  constructor
  · intro hparse
    rw [parse_eq] at hparse
    cases hrun : (State.start 0).run limits text.toList with
    | ok state =>
      -- At the end of a text no parenthesis is one too many.
      rw [hrun] at hparse
      obtain ⟨closed, operand, chain, count, -, -, hcount⟩ :=
        State.exists_ends_of_finish_unbalanced hparse
      omega
    | error cause =>
      rw [hrun] at hparse
      obtain rfl := Except.error.inj hparse
      obtain ⟨before, behind, htext, hbefore⟩ := exists_ends_of_run_unopened hrun
      refine ⟨String.ofList before, String.ofList behind, by simp [← String.toList_inj, htext], ?_⟩
      rw [parse_eq, String.toList_ofList]
      rcases hbefore with hblank | ⟨state, closed, operand, chain, hread, hends, hoperand⟩
      · exact .inl hblank
      · rw [hread]
        exact .inr ⟨_, hends.finish, Chain.reduce_ne_allResults hoperand⟩
  · rintro ⟨part, rest, rfl, hpart⟩
    have htext : (part ++ ")" ++ rest).toList = part.toList ++ ')' :: rest.toList := by simp
    rcases hpart with hblank | ⟨query, hparse, hquery⟩
    · have hrun : (State.start 0).run limits part.toList = .ok (.start 0) :=
        (State.Awaits.start 0).run_blank hblank
      exact parse_eq_error_of_step htext hrun rfl
    · obtain ⟨state, hrun, hfinish⟩ := exists_run_of_parse hparse
      obtain ⟨closed, operand, chain, hends⟩ := State.exists_ends_of_finish_ok hfinish hquery
      exact parse_eq_error_of_step htext hrun hends.step_close_eq_error

/-- A text that is refused for parentheses left open lacks exactly as many closing ones as the
cause tells, and it is refused for one that is too many exactly if that one stands behind
separators only or behind a text that tells a query other than the wildcard. -/
theorem parse_unbalanced (limits : Limits) (text : String) :
    (∀ depth : Int, parse limits text = .error (.unbalancedParentheses depth) → depth ≠ -1 →
      1 ≤ depth ∧ ∀ count : Nat,
        (count < depth →
          parse limits (text ++ String.ofList (List.replicate count ')')) =
            .error (.unbalancedParentheses (depth - count))) ∧
        (count = depth →
          ∃ query, parse limits (text ++ String.ofList (List.replicate count ')')) = .ok query) ∧
        (depth < count →
          parse limits (text ++ String.ofList (List.replicate count ')')) =
            .error (.unbalancedParentheses (-1)))) ∧
      (parse limits text = .error (.unbalancedParentheses (-1)) ↔
        ∃ part rest, text = part ++ ")" ++ rest ∧
          (Blank part.toList ∨
            ∃ query, parse limits part = .ok query ∧ query ≠ .allResults)) := by
  refine ⟨?_, parse_unopened_iff⟩
  intro depth hparse hdepth
  obtain ⟨state, closed, operand, chain, open', hrun, hends, hpos, rfl⟩ :=
    exists_ends_of_parse_unbalanced hparse hdepth
  have hclosings := parse_append_closings hrun hends
  refine ⟨by omega, fun count => ⟨fun hlt => ?_, fun heq => ?_, fun hlt => ?_⟩⟩
  · have hlt' : count < open' := by omega
    rw [hclosings, if_pos hlt', Int.ofNat_sub (Nat.le_of_lt hlt')]
  · have heq' : count = open' := by omega
    have hnot : ¬ count < open' := by omega
    exact ⟨_, by rw [hclosings, if_neg hnot, if_pos heq']⟩
  · have hnot : ¬ count < open' := by omega
    have hne : count ≠ open' := by omega
    rw [hclosings, if_neg hnot, if_neg hne]

/-- Two parentheses are missing where others stand in a property and in quotes. -/
theorem parse_unbalanced_two :
    parse ⟨2, 2⟩ "((a( = \")\" and b exists true" = .error (.unbalancedParentheses 2) ∧
      parse ⟨2, 2⟩ ("((a( = \")\" and b exists true" ++ String.ofList (List.replicate 1 ')')) =
        .error (.unbalancedParentheses 1) ∧
      (∃ query, parse ⟨2, 2⟩
        ("((a( = \")\" and b exists true" ++ String.ofList (List.replicate 2 ')')) = .ok query) ∧
      parse ⟨2, 2⟩ ("((a( = \")\" and b exists true" ++ String.ofList (List.replicate 3 ')')) =
        .error (.unbalancedParentheses (-1)) := by
  have hparse : parse ⟨2, 2⟩ "((a( = \")\" and b exists true" =
      .error (.unbalancedParentheses 2) := by rfl
  obtain ⟨-, hcount⟩ := (parse_unbalanced ⟨2, 2⟩ _).1 2 hparse (by decide)
  exact ⟨hparse, (hcount 1).1 (by decide), (hcount 2).2.1 rfl, (hcount 3).2.2 (by decide)⟩

end Query

end SearchCriteria
