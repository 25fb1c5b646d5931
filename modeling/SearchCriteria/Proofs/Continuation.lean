import SearchCriteria.Proofs.Chain.Folding
import SearchCriteria.Proofs.Reader.Move
import SearchCriteria.Query.Calls

/-!
# Going on with a text

More text may group a query anew, for what follows decides which junctions take which sides. But
what has been read of expressions and junctions stays, in its order, and more can only be added
behind it.
-/

namespace SearchCriteria

open Reader

namespace Chain

/-- What the waiting junctions and their left sides tell, in the order in which it was read. -/
def callsInOrder : List Pending → List Call
  | [] => []
  | top :: rest => callsInOrder rest ++ (top.left.callsInOrder ++ [.joined top.junction])

/-- Folding regroups what has been told, and keeps its order. -/
theorem callsInOrder_reduce (floor : Nat) (pending : List Pending) (operand : Query) :
    callsInOrder (reduce floor pending operand).2 ++
        (reduce floor pending operand).1.callsInOrder =
      callsInOrder pending ++ operand.callsInOrder := by
  induction pending generalizing operand with
  | nil => rfl
  | cons top rest ih =>
    by_cases htop : floor ≤ top.priority
    · rw [reduce_cons_of_le htop, ih]
      simp [callsInOrder, Query.callsInOrder]
    · rw [reduce_cons_of_lt (Nat.lt_of_not_le htop)]

/-- A junction is told behind its left side. -/
theorem callsInOrder_push (chain : Chain) (operand : Query) (junction : Junction)
    (priority : Nat) :
    callsInOrder (chain.push operand junction priority).pending =
      callsInOrder chain.pending ++ operand.callsInOrder ++ [.joined junction] := by
  rw [pending_push rfl, callsInOrder, ← List.append_assoc, callsInOrder_reduce]

/-- The query at the end tells what the chain and the last operand tell. -/
theorem callsInOrder_complete (chain : Chain) (operand : Query) :
    (chain.complete operand).callsInOrder =
      callsInOrder chain.pending ++ operand.callsInOrder := by
  have hcalls := callsInOrder_reduce 0 chain.pending operand
  rw [reduce_zero_eq_nil] at hcalls
  exact hcalls

end Chain

namespace Reader

/-- What a clause tells if the text ends behind it. -/
def Clause.callsInOrder (clause : Clause) : List Call :=
  match clause.finish with
  | .ok operand => operand.callsInOrder
  | .error _ => []

/-- What has been told by the state, in the order in which it was read. -/
def State.callsInOrder : State → List Call
  | start _ => []
  | wildcard => [.allResults]
  | inClause clause scope => Chain.callsInOrder scope.chain.pending ++ clause.callsInOrder
  | afterOperand operand scope => Chain.callsInOrder scope.chain.pending ++ operand.callsInOrder
  | inJunction _ _ scope => Chain.callsInOrder scope.chain.pending
  | afterJunction _ scope => Chain.callsInOrder scope.chain.pending

variable {limits : Limits}

namespace Clause

/-- A clause that is complete tells its query. -/
theorem callsInOrder_of_finish {clause : Clause} {operand : Query}
    (hfinish : clause.finish = .ok operand) : clause.callsInOrder = operand.callsInOrder := by
  rw [callsInOrder, hfinish]

/-- A clause that is not complete tells nothing. -/
theorem callsInOrder_eq_nil {clause : Clause} (hfinish : ∀ operand, clause.finish ≠ .ok operand) :
    clause.callsInOrder = [] := by
  rw [callsInOrder]
  split
  case h_1 operand hok => exact absurd hok (hfinish operand)
  case h_2 => rfl

/-- A clause that goes on has told nothing yet. -/
theorem Moves.callsInOrder_eq_nil {clause clause' : Clause} {c : Char}
    (hmoves : clause.Moves c (.more clause')) : clause.callsInOrder = [] := by
  apply Clause.callsInOrder_eq_nil
  intro operand hfinish
  obtain ⟨property, value, rfl, -⟩ := finish_eq_ok hfinish
  cases hmoves with
  | flagLetter hnext => simp at hnext

/-- A clause that has ended has told nothing but its query. -/
theorem Moves.callsInOrder_begins {clause : Clause} {operand : Query} {c : Char}
    (hmoves : clause.Moves c (.ended operand)) : clause.callsInOrder <+: operand.callsInOrder := by
  cases hfinish : clause.finish with
  | error cause =>
    rw [Clause.callsInOrder, hfinish]
    exact List.nil_prefix
  | ok other =>
    obtain ⟨property, value, rfl, rfl⟩ := finish_eq_ok hfinish
    have hcalls := Clause.callsInOrder_of_finish hfinish
    cases hmoves with
    | endFlag => exact hcalls ▸ List.prefix_rfl

end Clause

namespace State

/-- Each move keeps what has been told, and may add to it. -/
theorem Moves.callsInOrder_begins {state next : State} {c : Char}
    (hmoves : Moves limits state c next) : state.callsInOrder <+: next.callsInOrder := by
  induction hmoves with
  | idle => exact List.prefix_rfl
  | wildcard => exact List.nil_prefix
  | idleWildcard => exact List.prefix_rfl
  | openFirst => exact List.prefix_rfl
  | openSide => exact List.prefix_rfl
  | begin hawaits =>
    cases hawaits with
    | start depth => exact List.nil_prefix
    | afterJunction junction scope => exact List.prefix_append _ _
  | more hclause =>
    rw [callsInOrder, hclause.callsInOrder_eq_nil, List.append_nil]
    exact List.prefix_append _ _
  | closed hclause =>
    cases hclause with
    | unquote => exact (List.prefix_append_right_inj _).mpr List.nil_prefix
  | @ended _ _ scope _ _ hclause _ ih =>
    have hended := (List.prefix_append_right_inj (Chain.callsInOrder scope.chain.pending)).mpr
      hclause.callsInOrder_begins
    exact hended.trans ih
  | idleOperand => exact List.prefix_rfl
  | close => exact List.prefix_rfl
  | junction =>
    rw [callsInOrder, callsInOrder, Chain.callsInOrder_push]
    exact List.prefix_append _ _
  | letter => exact List.prefix_rfl
  | endKeyword => exact List.prefix_rfl

/-- Reading on keeps what has been told. -/
theorem callsInOrder_prefix_of_run {state last : State} {text : List Char}
    (hrun : state.run limits text = .ok last) : state.callsInOrder <+: last.callsInOrder :=
  run_invariant (motive := fun next => state.callsInOrder <+: next.callsInOrder)
    (fun hnext hmoves => hnext.trans hmoves.callsInOrder_begins) List.prefix_rfl hrun

/-- At the end of the text the query tells what the state has told. -/
theorem callsInOrder_of_finish {state : State} {query : Query}
    (hfinish : state.finish = .ok query) : query.callsInOrder = state.callsInOrder := by
  rcases finish_eq_ok hfinish with ⟨rfl, rfl⟩ | ⟨operand, scope, rfl, hscope⟩ |
    ⟨clause, operand, scope, rfl, hclause, hscope⟩
  · rfl
  · obtain ⟨-, rfl⟩ := Scope.finish_eq_ok hscope
    exact Chain.callsInOrder_complete scope.chain operand
  · obtain ⟨-, rfl⟩ := Scope.finish_eq_ok hscope
    rw [Chain.callsInOrder_complete, callsInOrder, Clause.callsInOrder_of_finish hclause]

end State

end Reader

namespace Query

/-- What a text tells, it also tells at the beginning of a longer one: the expressions and the
junctions between them are the same and in the same order, whatever the longer text groups. -/
theorem callsInOrder_prefix_of_parse {limits : Limits} {text more : String} {query whole : Query}
    (hquery : parse limits text = .ok query) (hwhole : parse limits (text ++ more) = .ok whole) :
    query.callsInOrder <+: whole.callsInOrder := by
  obtain ⟨state, hrun, hfinish⟩ := exists_run_of_parse hquery
  obtain ⟨last, hrun', hfinish'⟩ := exists_run_of_parse hwhole
  rw [String.toList_append, State.run_append_of_run hrun] at hrun'
  rw [State.callsInOrder_of_finish hfinish, State.callsInOrder_of_finish hfinish']
  exact State.callsInOrder_prefix_of_run hrun'

/-- Behind a disjunction, `and` takes the last expression out of it, and the order stays. -/
theorem callsInOrder_prefix_of_parse_regrouped :
    parse ⟨0, 3⟩ "a = \"\" or b exists true" =
        .ok (.joined .or (.relational "a" (.compare .equals ""))
          (.relational "b" (.existence true))) ∧
      parse ⟨0, 3⟩ ("a = \"\" or b exists true" ++ " and c < \"\"") =
        .ok (.joined .or (.relational "a" (.compare .equals ""))
          (.joined .and (.relational "b" (.existence true))
            (.relational "c" (.compare .lessThan "")))) ∧
      (joined .or (relational "a" (.compare .equals ""))
          (relational "b" (.existence true))).callsInOrder <+:
        (joined .or (relational "a" (.compare .equals ""))
          (joined .and (relational "b" (.existence true))
            (relational "c" (.compare .lessThan "")))).callsInOrder := by
  have hquery : parse ⟨0, 3⟩ "a = \"\" or b exists true" =
      .ok (.joined .or (.relational "a" (.compare .equals ""))
        (.relational "b" (.existence true))) := rfl
  have hwhole : parse ⟨0, 3⟩ ("a = \"\" or b exists true" ++ " and c < \"\"") =
      .ok (.joined .or (.relational "a" (.compare .equals ""))
        (.joined .and (.relational "b" (.existence true))
          (.relational "c" (.compare .lessThan "")))) := rfl
  exact ⟨hquery, hwhole, callsInOrder_prefix_of_parse hquery hwhole⟩

end Query

end SearchCriteria
