import SearchCriteria.Proofs.Grammar.Outline
import SearchCriteria.Proofs.Reader.Border

/-!
# Reading an expression

A relational expression is read part by part: its property, its operator, its operand.
Each part leads from one state of the clause to the next, in every scope and within
all limits, so the parts can be put together.
-/

namespace SearchCriteria.Reader.State

open Grammar

variable {limits : Limits} {scope : Scope}

/-- A word without separators goes on with the property. -/
theorem run_property (token : String) {word : List Char}
    (hword : ∀ c ∈ word, isSeparator c = false) :
    (inClause (.inProperty token) scope).run limits word =
      .ok (.inClause (.inProperty (token ++ String.ofList word)) scope) := by
  induction word generalizing token with
  | nil => simp
  | cons c rest ih =>
    have hc : isSeparator c = false := hword c List.mem_cons_self
    have hstep : (inClause (.inProperty token) scope).step limits c =
        .ok (.inClause (.inProperty (token.push c)) scope) := by
      simp [step, Clause.step, hc]
    rw [run_cons_of_step hstep, ih _ fun d hd => hword d (List.mem_cons_of_mem c hd),
      Text.push_append_ofList]

/-- The separators behind a property end it. -/
theorem run_property_gap (token : String) {gap : List Char} (hgap : Gap gap) :
    (inClause (.inProperty token) scope).run limits gap =
      .ok (.inClause (.beforeOperator token) scope) := by
  apply run_gap hgap
  · intro c hc
    simp [step, Clause.step, hc]
  · intro c hc
    simp [step, Clause.step, hc]

/-- Behind an operator the first separator shows that it has ended, and any others change
nothing. -/
theorem run_operand_gap {property : String} {operator : Operator} {clause : Clause}
    {gap : List Char} (hgap : Gap gap)
    (hstep : ∀ c, isSeparator c = true →
      clause.step c = .ok (.more (.beforeOperand property operator true))) :
    (inClause clause scope).run limits gap =
      .ok (.inClause (.beforeOperand property operator true) scope) := by
  apply run_gap hgap
  · intro c hc
    simp only [step, hstep c hc]
  · intro c hc
    simp [step, Clause.step, hc]

/-- The rest of a keyword is matched letter by letter. -/
theorem run_keyword (property : String) (operator : Operator) {matched : Nat}
    (hmatched : matched ≤ operator.keyword.toList.length) :
    (inClause (.inKeyword property operator matched) scope).run limits
        (operator.keyword.toList.drop matched) =
      .ok (.inClause (.inKeyword property operator operator.keyword.toList.length) scope) := by
  apply run_word (fun i => inClause (.inKeyword property operator i) scope) hmatched
  intro i c hc
  simp [step, Clause.step, stepKeyword, hc]

/-- A whole keyword is ended by a separator. -/
theorem step_keyword_end (property : String) (operator : Operator) {c : Char}
    (hc : isSeparator c = true) :
    (Clause.inKeyword property operator operator.keyword.toList.length).step c =
      .ok (.more (.beforeOperand property operator true)) := by
  simp [Clause.step, stepKeyword, hc]

/-- A symbol that is an operator of its own is ended by a separator. -/
theorem step_symbol_end (property : String) {operator : Operator}
    (hcomplete : operator ≠ .compare .notEquals) {c : Char} (hc : isSeparator c = true) :
    (Clause.afterSymbol property operator).step c =
      .ok (.more (.beforeOperand property operator true)) := by
  have hequal : c ≠ '=' := ne_of_isSeparator hc (by decide)
  have hsymbol : Clause.stepSymbol property operator c =
      .ok (.beforeOperand property operator true) := by
    rw [Clause.stepSymbol, if_neg hequal, if_neg hcomplete, if_pos hc]
  exact congrArg (Clause.Outcome.more <$> ·) hsymbol

/-- An operator and the separators behind it lead to its operand. -/
theorem run_operator (property : String) (operator : Operator) {gap : List Char}
    (hgap : Gap gap) :
    (inClause (.beforeOperator property) scope).run limits (operator.keyword.toList ++ gap) =
      .ok (.inClause (.beforeOperand property operator true) scope) := by
  have hkeyword : ∃ clause : Clause,
      (inClause (.beforeOperator property) scope).run limits operator.keyword.toList =
        .ok (.inClause clause scope) ∧
      ∀ c, isSeparator c = true →
        clause.step c = .ok (.more (.beforeOperand property operator true)) := by
    cases operator with
    | existence => exact ⟨_, rfl, fun c hc => step_keyword_end property .existence hc⟩
    | compare comparison =>
      cases comparison with
      | contains | doesNotContain | derivedFrom =>
        exact ⟨_, rfl, fun c hc => step_keyword_end property (.compare _) hc⟩
      | equals | notEquals | lessOrEqual | greaterOrEqual =>
        refine ⟨_, rfl, fun c hc => ?_⟩
        simp [Clause.step, hc]
      | lessThan | greaterThan =>
        exact ⟨_, rfl, fun c hc => step_symbol_end property (by decide) hc⟩
  obtain ⟨clause, hrun, hstep⟩ := hkeyword
  rw [run_append_of_run hrun]
  exact run_operand_gap hgap hstep

/-- Inside quotes a backslash stands for the character behind it. -/
theorem step_backslash (property : String) (operator : Operator) (content : String) :
    (inClause (.inText property operator content false) scope).step limits '\\' =
      .ok (.inClause (.inText property operator content true) scope) := rfl

/-- A character that needs a backslash may stand behind one. -/
theorem step_escaped (property : String) (operator : Operator) (content : String) {c : Char}
    (hc : Text.needsBackslash c = true) :
    (inClause (.inText property operator content true) scope).step limits c =
      .ok (.inClause (.inText property operator (content.push c) false) scope) := by
  simp [step, Clause.step, Clause.stepText, hc]

/-- Inside quotes a character that needs no backslash stands for itself. -/
theorem step_plain (property : String) (operator : Operator) (content : String) {c : Char}
    (hc : ¬ Text.needsBackslash c = true) :
    (inClause (.inText property operator content false) scope).step limits c =
      .ok (.inClause (.inText property operator (content.push c) false) scope) := by
  have hplain : c ≠ '"' ∧ c ≠ '\\' := by simpa [Text.needsBackslash] using hc
  simp [step, Clause.step, Clause.stepText, hplain]

/-- Inside quotes an escaped text stands for itself. -/
theorem run_escape (property : String) (operator : Operator) (content : String)
    (text : List Char) :
    (inClause (.inText property operator content false) scope).run limits (Text.escape text) =
      .ok (.inClause (.inText property operator (content ++ String.ofList text) false) scope) := by
  induction text generalizing content with
  | nil => simp
  | cons c rest ih =>
    have hchar : (inClause (.inText property operator content false) scope).run limits
        (if Text.needsBackslash c then ['\\', c] else [c]) =
          .ok (.inClause (.inText property operator (content.push c) false) scope) := by
      by_cases hc : Text.needsBackslash c = true
      · rw [if_pos hc, run_cons_of_step (step_backslash property operator content),
          run_cons_of_step (step_escaped property operator content hc), run_nil]
      · rw [if_neg hc, run_cons_of_step (step_plain property operator content hc), run_nil]
    rw [Text.escape_cons, run_append_of_run hchar, ih, Text.push_append_ofList]

/-- Behind an opening quote the spelling of a text leads to the text. -/
theorem run_escape_toList (property : String) (operator : Operator) (value : String) :
    (inClause (.inText property operator "" false) scope).run limits
        (Text.escape value.toList) =
      .ok (.inClause (.inText property operator value false) scope) := by
  rw [run_escape, String.ofList_toList, String.empty_append]

/-- An operand of the kind that the operator takes ends the expression. -/
theorem run_operand (limits : Limits) (scope : Scope) (property : String) (relation : Relation) :
    ∃ state : State, (inClause (.beforeOperand property relation.operator true) scope).run limits
        relation.operand.print.toList = .ok state ∧
      state.Ends relation.closed (.relational property relation) scope := by
  cases relation with
  | existence present =>
    refine ⟨_, ?_, .flag property present scope⟩
    cases present <;> rfl
  | compare comparison value =>
    refine ⟨_, ?_, .closed _ scope⟩
    have hopen : (inClause (.beforeOperand property (.compare comparison) true) scope).step limits
        '"' = .ok (.inClause (.inText property (.compare comparison) "" false) scope) := rfl
    rw [Relation.operand, Operand.print, Text.toList_quote, Relation.operator,
      run_cons_of_step hopen, run_append_of_run (run_escape_toList property _ value)]
    rfl

/-- Where an expression may begin, its property is read to the end. -/
theorem Awaits.run_name {state : State} {first : Bool} {property : String}
    (hawaits : state.Awaits first scope) (hproperty : Property first property.toList) :
    state.run limits property.toList = .ok (.inClause (.inProperty property) scope) := by
  cases hlist : property.toList with
  | nil => exact absurd hlist hproperty.nonempty
  | cons c rest =>
    rw [hlist] at hproperty
    have htoken : String.singleton c ++ String.ofList rest = property := by
      simp [← String.toList_inj, hlist]
    rw [run_cons_of_step (hawaits.step_property hproperty), run_property, htoken]
    exact fun d hd => hproperty.no_separator d (List.mem_cons_of_mem c hd)

/-- Where an expression may begin, its text is read as the expression. -/
theorem Awaits.run_expression (limits : Limits) {state : State} {first : Bool} {level : Level}
    {property : String} {gap gap' : List Char} {relation : Relation}
    (hawaits : state.Awaits first scope)
    (hfits : (Outline.expression property gap relation gap').Fits level first) :
    ∃ next : State,
      state.run limits (Outline.expression property gap relation gap').text = .ok next ∧
        next.Ends relation.closed (.relational property relation) scope := by
  obtain ⟨hproperty, hgap, hgap'⟩ := hfits
  have hword : state.run limits property.toList =
      .ok (.inClause (.inProperty property) scope) := hawaits.run_name hproperty
  obtain ⟨next, hrun, hends⟩ := run_operand limits scope property relation
  refine ⟨next, ?_, hends⟩
  rw [Outline.text, List.append_assoc, List.append_assoc, List.append_assoc,
    run_append_of_run hword, run_append_of_run (run_property_gap property hgap),
    ← List.append_assoc, run_append_of_run (run_operator property relation.operator hgap'), hrun]

end SearchCriteria.Reader.State
