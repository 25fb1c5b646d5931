import SearchCriteria.Reader

/-!
# Results of reading

A reading that succeeds has succeeded in each of its parts, and the parts can be put
together again. The small steps that several states share are told here by their results.
-/

namespace SearchCriteria

namespace Reader

variable {limits : Limits}

/-- A result of two parts is one of the first part and, from there, of the second. -/
theorem exists_of_bind_eq_ok {α β : Type} {result : Except ParseError α}
    {more : α → Except ParseError β} {last : β} (hbind : result.bind more = .ok last) :
    ∃ value, result = .ok value ∧ more value = .ok last := by
  cases result with
  | error cause => cases hbind
  | ok value => exact ⟨value, rfl, hbind⟩

/-- A result that has been mapped is the image of a result. -/
theorem exists_of_map_eq_ok {α β : Type} {result : Except ParseError α} {image : α → β}
    {last : β} (hmap : image <$> result = .ok last) :
    ∃ value, result = .ok value ∧ image value = last := by
  cases result with
  | error cause => cases hmap
  | ok value => exact ⟨value, rfl, Except.ok.inj hmap⟩

/-- A refusal that has been mapped was there before. -/
theorem eq_error_of_map_eq_error {α β : Type} {result : Except ParseError α} {image : α → β}
    {cause : ParseError} (hmap : image <$> result = .error cause) : result = .error cause := by
  cases result with
  | error cause' => rw [Except.error.inj hmap]
  | ok value => cases hmap

/-- A matched letter is the next one of the keyword, and a separator ends the keyword when
all of it has been matched. -/
theorem stepKeyword_eq_ok {keyword : List Char} {matched : Nat} {c : Char} {result : Option Nat}
    (hstep : stepKeyword keyword matched c = .ok result) :
    (result = some (matched + 1) ∧ keyword[matched]? = some c) ∨
      (result = none ∧ isSeparator c = true ∧ keyword.length ≤ matched) := by
  unfold stepKeyword at hstep
  simp only at hstep
  split at hstep
  case h_1 next hnext =>
    split at hstep
    case isTrue hc =>
      rw [← hc] at hnext
      exact .inl ⟨(Except.ok.inj hstep).symm, hnext⟩
    case isFalse => split at hstep <;> cases hstep
  case h_2 hend =>
    split at hstep
    case isTrue hc =>
      exact .inr ⟨(Except.ok.inj hstep).symm, hc, List.getElem?_eq_none_iff.mp hend⟩
    case isFalse => cases hstep

/-- The next letter lengthens what has been matched of a word. -/
theorem take_succ_of_getElem? {word : List Char} {matched : Nat} {c : Char}
    (hnext : word[matched]? = some c) : word.take (matched + 1) = word.take matched ++ [c] := by
  rw [List.take_add_one, hnext]
  rfl

/-- An opened parenthesis counts one more, and there was room for it. -/
theorem openParenthesis_eq_ok {depth depth' : Nat}
    (hopen : openParenthesis limits depth = .ok depth') :
    depth < limits.maxNestingDepth ∧ depth' = depth + 1 := by
  unfold openParenthesis at hopen
  split at hopen
  case isTrue => cases hopen
  case isFalse hroom => exact ⟨Nat.lt_of_not_le hroom, (Except.ok.inj hopen).symm⟩

/-- A junction that has begun had room, and waits in the chain. -/
theorem beginJunction_eq_ok {junction : Junction} {operand : Query} {scope : Scope}
    {next : State} (hbegin : beginJunction limits junction operand scope = .ok next) :
    scope.chain.joined + 2 ≤ limits.maxTerms ∧
      next = .inJunction junction 1 { scope with
        chain := scope.chain.push operand junction (junction.priority scope.depth) } := by
  unfold beginJunction at hbegin
  split at hbegin
  case isTrue => cases hbegin
  case isFalse hroom => exact ⟨Nat.le_of_not_lt hroom, (Except.ok.inj hbegin).symm⟩

/-- A scope is finished by its chain, once no parenthesis is open. -/
theorem Scope.finish_eq_ok {operand query : Query} {scope : Scope}
    (hfinish : scope.finish operand = .ok query) :
    scope.depth = 0 ∧ scope.chain.complete operand = query := by
  unfold Scope.finish at hfinish
  split at hfinish
  case isTrue hdepth => exact ⟨hdepth, Except.ok.inj hfinish⟩
  case isFalse => cases hfinish

namespace State

/-- Reading goes on from where it has come to. -/
theorem run_append_of_run {state next : State} {text : List Char}
    (hrun : state.run limits text = .ok next) (more : List Char) :
    state.run limits (text ++ more) = next.run limits more := by
  rw [run_append, hrun]
  rfl

/-- Reading goes on from the state after the first character. -/
theorem run_cons_of_step {state next : State} {c : Char}
    (hstep : state.step limits c = .ok next) (text : List Char) :
    state.run limits (c :: text) = next.run limits text := by
  rw [run_cons, hstep]
  rfl

/-- A text that has been read was read character by character. -/
theorem exists_of_run_cons {state last : State} {c : Char} {rest : List Char}
    (hrun : state.run limits (c :: rest) = .ok last) :
    ∃ next, state.step limits c = .ok next ∧ next.run limits rest = .ok last := by
  rw [run_cons] at hrun
  exact exists_of_bind_eq_ok hrun

/-- A text that has been read was read part by part. -/
theorem exists_of_run_append {state last : State} {text more : List Char}
    (hrun : state.run limits (text ++ more) = .ok last) :
    ∃ next, state.run limits text = .ok next ∧ next.run limits more = .ok last := by
  rw [run_append] at hrun
  exact exists_of_bind_eq_ok hrun

end State

/-- A reader that can take a text comes to the state behind it. -/
theorem feed_of_run {text : List Char} {state : State}
    (hrun : (State.start 0).run limits text = .ok state) :
    (Reader.new limits).feed (String.ofList text) = .ok ⟨limits, state⟩ := by
  rw [Reader.feed, Reader.new, String.toList_ofList, hrun]
  rfl

end Reader

open Reader

/-- A text that tells a query has been read to its end, where the state tells the query. -/
theorem Query.exists_run_of_parse {limits : Limits} {text : String} {query : Query}
    (hparse : parse limits text = .ok query) :
    ∃ state, (State.start 0).run limits text.toList = .ok state ∧ state.finish = .ok query := by
  rw [parse_eq] at hparse
  exact exists_of_bind_eq_ok hparse

end SearchCriteria
