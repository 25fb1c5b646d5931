import SearchCriteria.Proofs.Reader.Move
import SearchCriteria.Reader.Trace

/-!
# How fast a reader uses up its limits

A character opens one parenthesis or begins one junction at most, and never both. So a text
is at least as long as the parentheses that are open behind it and the junctions that have
begun in it are many.
-/

namespace SearchCriteria.Reader.State

variable {limits : Limits}

/-- Where an expression may begin, the parentheses of its scope are open. -/
theorem Awaits.depth_eq {state : State} {first : Bool} {scope : Scope}
    (hawaits : state.Awaits first scope) : state.depth = scope.depth := by
  cases hawaits <;> rfl

/-- Where an expression may begin, the junctions of its scope have begun. -/
theorem Awaits.joined_eq {state : State} {first : Bool} {scope : Scope}
    (hawaits : state.Awaits first scope) : state.joined = scope.chain.joined := by
  cases hawaits <;> rfl

/-- Each move opens one parenthesis or begins one junction at most. -/
theorem Moves.growth {state next : State} {c : Char} (hmoves : Moves limits state c next) :
    (next.depth ≤ state.depth + 1 ∧ next.joined ≤ state.joined) ∨
      (next.depth ≤ state.depth ∧ next.joined ≤ state.joined + 1) := by
  induction hmoves with
  | idle => exact .inl ⟨Nat.le_succ _, Nat.le_refl _⟩
  | wildcard => exact .inl ⟨Nat.le_succ _, Nat.le_refl _⟩
  | idleWildcard => exact .inl ⟨Nat.le_succ _, Nat.le_refl _⟩
  | openFirst => exact .inl ⟨Nat.le_refl _, Nat.le_refl _⟩
  | openSide => exact .inl ⟨Nat.le_refl _, Nat.le_refl _⟩
  | begin hawaits =>
    rw [hawaits.depth_eq, hawaits.joined_eq]
    exact .inl ⟨Nat.le_succ _, Nat.le_refl _⟩
  | more => exact .inl ⟨Nat.le_succ _, Nat.le_refl _⟩
  | closed => exact .inl ⟨Nat.le_succ _, Nat.le_refl _⟩
  | ended _ _ ih => exact ih
  | idleOperand => exact .inl ⟨Nat.le_succ _, Nat.le_refl _⟩
  | close => exact .inr ⟨Nat.le_succ _, Nat.le_succ _⟩
  | junction => exact .inr ⟨Nat.le_refl _, Nat.le_refl _⟩
  | letter => exact .inl ⟨Nat.le_succ _, Nat.le_refl _⟩
  | endKeyword => exact .inl ⟨Nat.le_succ _, Nat.le_refl _⟩

/-- Each open parenthesis and each junction has had a character of its own. -/
theorem depth_add_joined_le {text : List Char} {state : State}
    (hrun : (start 0).run limits text = .ok state) :
    state.depth + state.joined ≤ text.length := by
  have hstart : (start 0).depth + (start 0).joined ≤ ([] : List Char).length := Nat.le_refl 0
  refine run_induction (motive := fun text state => state.depth + state.joined ≤ text.length)
    ?_ hstart hrun
  intro text state next c hstate hmoves
  rw [List.length_append, List.length_singleton]
  rcases hmoves.growth with ⟨hdepth, hjoined⟩ | ⟨hdepth, hjoined⟩ <;> omega

end SearchCriteria.Reader.State
