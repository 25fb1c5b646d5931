import SearchCriteria.Proofs.Grammar.Word
import SearchCriteria.Proofs.Reader.Result

/-!
# The borders of expressions

A reader awaits an expression at the start of the text and behind a junction, and it
has ended one behind a closing quote, a parenthesis or a whole truth value. What it
does with separators and parentheses at these borders does not depend on which of the
states it is in.
-/

namespace SearchCriteria.Reader

open Grammar

variable {limits : Limits}

/-- A state that no separator changes is not changed by a run of them. -/
theorem State.run_blank {state : State} {blank : List Char} (hblank : Blank blank)
    (hidle : ∀ c, isSeparator c = true → state.step limits c = .ok state) :
    state.run limits blank = .ok state := by
  induction blank with
  | nil => rfl
  | cons c rest ih =>
    rw [State.run_cons_of_step (hidle c (hblank c List.mem_cons_self))]
    exact ih fun d hd => hblank d (List.mem_cons_of_mem c hd)

/-- The first separator leads to a state that the others do not change. -/
theorem State.run_gap {state next : State} {gap : List Char} (hgap : Gap gap)
    (hfirst : ∀ c, isSeparator c = true → state.step limits c = .ok next)
    (hidle : ∀ c, isSeparator c = true → next.step limits c = .ok next) :
    state.run limits gap = .ok next := by
  obtain ⟨hnonempty, hblank⟩ := hgap
  cases gap with
  | nil => exact absurd rfl hnonempty
  | cons c rest =>
    rw [State.run_cons_of_step (hfirst c (hblank c List.mem_cons_self))]
    exact State.run_blank (fun d hd => hblank d (List.mem_cons_of_mem c hd)) hidle

/-- A word with one spelling is matched letter by letter to its end. -/
theorem State.run_word (within : Nat → State) {word : List Char} {matched : Nat}
    (hmatched : matched ≤ word.length)
    (hletter : ∀ i c, word[i]? = some c → (within i).step limits c = .ok (within (i + 1))) :
    (within matched).run limits (word.drop matched) = .ok (within word.length) := by
  induction hrest : word.drop matched generalizing matched with
  | nil =>
    have hlength := List.drop_eq_nil_iff.mp hrest
    rw [run_nil, Nat.le_antisymm hmatched hlength]
  | cons c rest ih =>
    have hlt : matched < word.length := by
      have hlength := congrArg List.length hrest
      simp only [List.length_drop, List.length_cons] at hlength
      omega
    rw [List.drop_eq_getElem_cons hlt] at hrest
    obtain ⟨hc, hrest⟩ := List.cons.inj hrest
    have hnext : word[matched]? = some c := by
      rw [List.getElem?_eq_getElem hlt, hc]
    rw [run_cons_of_step (hletter matched c hnext)]
    exact ih hlt hrest

/-- `state.Awaits first scope`: an expression may begin in the scope, and it is the
first of its text if no junction has been read. -/
inductive State.Awaits : State → Bool → Scope → Prop where
  | start (depth : Nat) : Awaits (.start depth) true ⟨Chain.empty, depth⟩
  | afterJunction (junction : Junction) (scope : Scope) :
    Awaits (.afterJunction junction scope) false scope

/-- `state.Ends closed operand scope`: the operand has been read to its last character,
and unless it is closed a keyword may not follow at once. -/
inductive State.Ends : State → Bool → Query → Scope → Prop where
  | closed (operand : Query) (scope : Scope) :
    Ends (.afterOperand operand scope) true operand scope
  | flag (property : String) (present : Bool) (scope : Scope) :
    Ends (.inClause (.inFlag property present (flagLiteral present).length) scope) false
      (.relational property (.existence present)) scope

namespace State

/-- Separators before an expression change nothing. -/
theorem Awaits.run_blank {state : State} {first : Bool} {scope : Scope} {blank : List Char}
    (hawaits : state.Awaits first scope) (hblank : Blank blank) :
    state.run limits blank = .ok state := by
  apply State.run_blank hblank
  intro c hc
  cases hawaits with
  | start depth => rw [step, stepStart, if_pos hc]
  | afterJunction junction scope => rw [step, stepAfterJunction, if_pos hc]

/-- A parenthesis before an expression opens a group if there is room for it. -/
theorem Awaits.step_open {state : State} {first : Bool} {scope : Scope}
    (hawaits : state.Awaits first scope) (hroom : scope.depth < limits.maxNestingDepth) :
    ∃ next : State, state.step limits '(' = .ok next ∧
      next.Awaits first { scope with depth := scope.depth + 1 } := by
  have hopen : openParenthesis limits scope.depth = .ok (scope.depth + 1) := by
    rw [openParenthesis, if_neg (Nat.not_le_of_lt hroom)]
  cases hawaits with
  | start depth =>
    refine ⟨.start (depth + 1), ?_, .start (depth + 1)⟩
    have hopen' : openParenthesis limits depth = .ok (depth + 1) := hopen
    rw [step, stepStart, if_neg (by decide), if_neg (by decide), if_pos rfl, hopen']
    rfl
  | afterJunction junction scope =>
    refine ⟨_, ?_, .afterJunction junction _⟩
    rw [step, stepAfterJunction, if_neg (by decide), if_pos rfl, hopen]
    rfl

/-- Any character that can begin a property begins one. -/
theorem Awaits.step_property {state : State} {first : Bool} {scope : Scope} {c : Char}
    {rest : List Char} (hawaits : state.Awaits first scope)
    (hproperty : Property first (c :: rest)) :
    state.step limits c = .ok (.inClause (.inProperty (String.singleton c)) scope) := by
  have hword : isSeparator c = false := hproperty.no_separator c List.mem_cons_self
  have hopen : c ≠ '(' := fun h => hproperty.no_open (by simp [h])
  have hclose : c ≠ ')' := fun h => hproperty.no_close (by simp [h])
  cases hawaits with
  | start depth =>
    have hstar : c ≠ '*' := fun h => hproperty.no_wildcard rfl (by simp [h])
    simp [step, stepStart, hword, hopen, hclose, hstar]
  | afterJunction junction scope =>
    simp [step, stepAfterJunction, hword, hopen, hclose]

/-- A truth value that has been read to its end waits for the character behind it. -/
theorem step_flag_end (property : String) (present : Bool) (scope : Scope) {c : Char}
    (hc : isSeparator c = true ∨ c = ')') :
    (inClause (.inFlag property present (flagLiteral present).length) scope).step limits c =
      stepAfterOperand limits (.relational property (.existence present)) scope c := by
  have hend : (flagLiteral present).toList[(flagLiteral present).length]? = none := by
    cases present <;> rfl
  have htouch : (isSeparator c || c = '(' || c = ')') = true := by
    rcases hc with hc | hc <;> simp [hc]
  simp only [step, Clause.step, Clause.stepFlag, hend, if_pos htouch]

/-- Behind an operand a separator leaves only the junction or parenthesis to come. -/
theorem Ends.step_separator {state : State} {closed : Bool} {operand : Query} {scope : Scope}
    {c : Char} (hends : state.Ends closed operand scope) (hc : isSeparator c = true) :
    state.step limits c = .ok (.afterOperand operand scope) := by
  have hafter : stepAfterOperand limits operand scope c = .ok (.afterOperand operand scope) := by
    rw [stepAfterOperand, if_pos hc]
  cases hends with
  | closed => exact hafter
  | flag property present scope => rw [step_flag_end property present scope (.inl hc), hafter]

/-- Behind an operand a parenthesis closes a group, if one is open. -/
theorem Ends.step_close {state : State} {closed : Bool} {operand : Query} {chain : Chain}
    {depth : Nat} (hends : state.Ends closed operand ⟨chain, depth + 1⟩) :
    state.step limits ')' = .ok (.afterOperand operand ⟨chain, depth⟩) := by
  have hafter : stepAfterOperand limits operand ⟨chain, depth + 1⟩ ')' =
      .ok (.afterOperand operand ⟨chain, depth⟩) := rfl
  cases hends with
  | closed => exact hafter
  | flag property present scope =>
    rw [step_flag_end property present _ (.inr rfl), hafter]

/-- Where no parenthesis is open behind an operand, none can be closed. -/
theorem Ends.step_close_eq_error {state : State} {closed : Bool} {operand : Query} {chain : Chain}
    (hends : state.Ends closed operand ⟨chain, 0⟩) :
    state.step limits ')' = .error (.unbalancedParentheses (-1)) := by
  have hafter : stepAfterOperand limits operand ⟨chain, 0⟩ ')' =
      .error (.unbalancedParentheses (-1)) := rfl
  cases hends with
  | closed => exact hafter
  | flag property present => rw [step_flag_end property present _ (.inr rfl), hafter]

/-- An operand has ended for its scope, whatever may still touch it. -/
theorem Ends.finish {state : State} {closed : Bool} {operand : Query} {scope : Scope}
    (hends : state.Ends closed operand scope) : state.finish = scope.finish operand := by
  cases hends with
  | closed => rfl
  | flag property present scope =>
    rw [State.finish, Clause.finish, if_pos rfl]
    rfl

/-- Separators behind an operand leave it ended. -/
theorem Ends.run_blank (limits : Limits) {state : State} {closed : Bool} {operand : Query}
    {scope : Scope} {blank : List Char} (hends : state.Ends closed operand scope)
    (hblank : Blank blank) :
    ∃ next : State, state.run limits blank = .ok next ∧
      next.Ends (closed || !blank.isEmpty) operand scope := by
  cases blank with
  | nil => exact ⟨state, rfl, by simpa using hends⟩
  | cons c rest =>
    have hgap : Gap (c :: rest) := ⟨List.cons_ne_nil c rest, hblank⟩
    have hidle : ∀ d, isSeparator d = true →
        (State.afterOperand operand scope).step limits d = .ok (.afterOperand operand scope) :=
      fun d hd => (Ends.closed operand scope).step_separator hd
    refine ⟨.afterOperand operand scope, ?_, by simpa using Ends.closed operand scope⟩
    exact State.run_gap hgap (fun d hd => hends.step_separator hd) hidle

/-- With a separator behind it, an operand may be followed by a keyword. -/
theorem Ends.run_blank_closed {state : State} {closed : Bool} {operand : Query} {scope : Scope}
    {blank : List Char} (hends : state.Ends closed operand scope) (hblank : Blank blank)
    (hclosed : closed = false → blank ≠ []) :
    state.run limits blank = .ok (.afterOperand operand scope) := by
  obtain ⟨next, hrun, hnext⟩ := hends.run_blank limits hblank
  have htrue : (closed || !blank.isEmpty) = true := by
    cases closed with
    | true => rfl
    | false => simpa using hclosed rfl
  rw [htrue] at hnext
  cases hnext with
  | closed => exact hrun

end State

end SearchCriteria.Reader
