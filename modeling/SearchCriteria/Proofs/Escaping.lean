import SearchCriteria.Proofs.Reader.Trace

/-!
# The spelling of texts in quotes

Behind an opening quote there is one way to write a text and to close the quotes: a backslash
before each quote and each backslash of the text, and then a quote. A reader takes exactly this
spelling for the text, so reading undoes writing and writing undoes reading.
-/

namespace SearchCriteria.Reader

variable {limits : Limits}

/-- `state.Closes limits text operand scope`: the text is read in quotes, and its last character
closes them and ends the operand. -/
structure State.Closes (limits : Limits) (state : State) (text : List Char) (operand : Query)
    (scope : Scope) : Prop where
  run_eq : state.run limits text = .ok (.afterOperand operand scope)
  inQuotes : ∀ entry ∈ state.trace limits text, entry.1.inQuotes = true

namespace State

/-- Behind a character that leaves the quotes open, the rest closes them. -/
theorem Closes.tail {state next : State} {c : Char} {rest : List Char} {operand : Query}
    {scope : Scope} (hcloses : state.Closes limits (c :: rest) operand scope)
    (hstep : state.step limits c = .ok next) : next.Closes limits rest operand scope := by
  obtain ⟨hrun, hquotes⟩ := hcloses
  rw [run_cons_of_step hstep] at hrun
  refine ⟨hrun, fun entry hentry => hquotes entry ?_⟩
  rw [trace, hstep]
  exact List.mem_cons_of_mem _ hentry

/-- A text that is not in quotes has nothing to close. -/
theorem Closes.eq_nil {state : State} {text : List Char} {operand : Query} {scope : Scope}
    (hcloses : state.Closes limits text operand scope) (hquotes : state.inQuotes = false) :
    text = [] := by
  cases text with
  | nil => rfl
  | cons c rest =>
    have hfirst : state.inQuotes = true := hcloses.inQuotes (state, c) List.mem_cons_self
    rw [hquotes] at hfirst
    cases hfirst

/-- What closes the quotes spells the rest of the text that it leaves in the operand. -/
theorem Closes.exists_spelling {property property' : String} {operator : Operator}
    {content value : String} {escaped : Bool} {scope scope' : Scope} {comparison : Comparison}
    {text : List Char}
    (hcloses : (inClause (.inText property operator content escaped) scope).Closes limits text
      (.relational property' (.compare comparison value)) scope') :
    ∃ more, value.toList = content.toList ++ more ∧
      (if escaped then ['\\'] else []) ++ text = Text.escape more ++ ['"'] := by
  induction text generalizing content escaped with
  | nil => cases hcloses.run_eq
  | cons c rest ih =>
    obtain ⟨next, hstep, hrest⟩ := exists_of_run_cons hcloses.run_eq
    have htail := hcloses.tail hstep
    cases moves_of_step hstep with
    | idle hawaits => cases hawaits
    | begin hawaits => cases hawaits
    | ended hclause => cases hclause
    | more hclause =>
      cases hclause with
      | backslash =>
        obtain ⟨more, hvalue, hspelled⟩ := ih htail
        exact ⟨more, hvalue, hspelled⟩
      | escaped hc =>
        obtain ⟨more, hvalue, hspelled⟩ := ih htail
        refine ⟨c :: more, ?_, ?_⟩
        · rw [hvalue, String.toList_push, List.append_assoc, List.singleton_append]
        · rw [Text.escape_cons, if_pos hc, List.append_assoc, ← hspelled]
          rfl
      | plain hc =>
        obtain ⟨more, hvalue, hspelled⟩ := ih htail
        refine ⟨c :: more, ?_, ?_⟩
        · rw [hvalue, String.toList_push, List.append_assoc, List.singleton_append]
        · rw [Text.escape_cons, hc, List.append_assoc, ← hspelled]
          rfl
    | closed hclause =>
      cases hclause with
      | unquote =>
        -- Nothing is left behind the closing quote, for what stands there is not in quotes.
        obtain rfl := htail.eq_nil rfl
        cases hrest
        exact ⟨[], (List.append_nil _).symm, rfl⟩

/-- The spelling of a text leaves the quotes open. -/
theorem inQuotes_of_mem_trace_escape {property content : String} {operator : Operator}
    {scope : Scope} {text : List Char} {entry : State × Char}
    (hentry : entry ∈ (inClause (.inText property operator content false) scope).trace limits
      (Text.escape text)) : entry.1.inQuotes = true := by
  induction text generalizing content with
  | nil => cases hentry
  | cons c rest ih =>
    rw [Text.escape_cons] at hentry
    by_cases hc : Text.needsBackslash c = true
    · rw [if_pos hc] at hentry
      simp only [List.cons_append, List.nil_append, trace, step_backslash,
        step_escaped property operator content hc, List.mem_cons] at hentry
      rcases hentry with rfl | rfl | hentry
      · rfl
      · rfl
      · exact ih hentry
    · rw [if_neg hc] at hentry
      simp only [List.cons_append, List.nil_append, trace,
        step_plain property operator content hc, List.mem_cons] at hentry
      rcases hentry with rfl | hentry
      · rfl
      · exact ih hentry

/-- The spelling of a text with a quote behind it closes the quotes. -/
theorem closes_escape (limits : Limits) (scope : Scope) (property : String)
    (comparison : Comparison) (value : String) :
    (inClause (.inText property (.compare comparison) "" false) scope).Closes limits
      (Text.escape value.toList ++ ['"']) (.relational property (.compare comparison value))
      scope := by
  have htext : (inClause (.inText property (.compare comparison) "" false) scope).run limits
      (Text.escape value.toList) =
        .ok (.inClause (.inText property (.compare comparison) value false) scope) :=
    run_escape_toList property (.compare comparison) value
  constructor
  · rw [run_append_of_run htext]
    rfl
  · intro entry hentry
    rw [trace_append htext, List.mem_append] at hentry
    rcases hentry with hentry | hentry
    · exact inQuotes_of_mem_trace_escape hentry
    · rw [List.mem_singleton.mp hentry]
      rfl

/-- Behind an opening quote a text is spelled in one way only. Whatever closes the quotes and
leaves the text in an operand is its spelling, and the spelling leaves the text behind the
property and the comparison that stand before the quote. -/
theorem closes_iff_escape (limits : Limits) (scope : Scope) (property : String)
    (comparison : Comparison) (text : List Char) (value : String) :
    ((∃ property' comparison' scope',
        (inClause (.inText property (.compare comparison) "" false) scope).Closes limits text
          (.relational property' (.compare comparison' value)) scope') ↔
        text = Text.escape value.toList ++ ['"']) ∧
      ((inClause (.inText property (.compare comparison) "" false) scope).Closes limits text
          (.relational property (.compare comparison value)) scope ↔
        (Operand.text value).print.toList = '"' :: text) := by
  have hspelling : ∀ {property' : String} {comparison' : Comparison} {scope' : Scope},
      (inClause (.inText property (.compare comparison) "" false) scope).Closes limits text
        (.relational property' (.compare comparison' value)) scope' →
      text = Text.escape value.toList ++ ['"'] := by
    intro property' comparison' scope' hcloses
    obtain ⟨more, hvalue, hspelled⟩ := hcloses.exists_spelling
    rw [hvalue]
    exact hspelled
  have hprinted : (Operand.text value).print.toList = '"' :: text ↔
      text = Text.escape value.toList ++ ['"'] := by
    rw [Operand.print, Text.toList_quote, List.cons_inj_right, eq_comm]
  constructor
  · constructor
    · rintro ⟨_, _, _, hcloses⟩
      exact hspelling hcloses
    · rintro rfl
      exact ⟨_, _, _, closes_escape limits scope property comparison value⟩
  · rw [hprinted]
    constructor
    · exact hspelling
    · rintro rfl
      exact closes_escape limits scope property comparison value

end State

end SearchCriteria.Reader
