import SearchCriteria.Proofs.Reader.Trace

/-!
# Separators outside of quotes

Outside of quotes a reader takes no notice of which separator it is given. The first one of a run
has the same outcome whichever it is, also where it is refused, and it leads to a state that the
others do not change. So any run of separators may stand for any other.
-/

namespace SearchCriteria

open Grammar

namespace Reader

variable {limits : Limits} {c d : Char}

/-- A separator stands in no word that has none. -/
theorem notMem_of_isSeparator {word : List Char} (hc : isSeparator c = true)
    (hword : word.all (fun letter => !isSeparator letter) = true) : c ∉ word := by
  intro hmem
  have hletter := List.all_eq_true.mp hword c hmem
  rw [hc] at hletter
  cases hletter

/-- No keyword of an operator has a separator in it. -/
theorem notMem_operator (hc : isSeparator c = true) (operator : Operator) :
    c ∉ operator.keyword.toList := by
  apply notMem_of_isSeparator hc
  cases operator with
  | existence => decide
  | compare comparison => cases comparison <;> decide

/-- No keyword of a junction has a separator in it. -/
theorem notMem_junction (hc : isSeparator c = true) (junction : Junction) :
    c ∉ junction.keyword.toList := by
  apply notMem_of_isSeparator hc
  cases junction <;> decide

/-- No truth value has a separator in it. -/
theorem notMem_flagLiteral (hc : isSeparator c = true) (value : Bool) :
    c ∉ (flagLiteral value).toList := by
  apply notMem_of_isSeparator hc
  cases value <;> decide

/-- What is not in a word is none of its letters. -/
theorem ne_of_getElem?_of_notMem {word : List Char} {matched : Nat} {next : Char}
    (hnext : word[matched]? = some next) (hc : c ∉ word) : c ≠ next := by
  rintro rfl
  exact hc (List.mem_of_getElem? hnext)

/-- A keyword is broken off or ended alike by every separator. -/
theorem stepKeyword_eq_of_isSeparator {keyword : List Char} (matched : Nat)
    (hc : isSeparator c = true) (hnotc : c ∉ keyword) (hd : isSeparator d = true)
    (hnotd : d ∉ keyword) : stepKeyword keyword matched c = stepKeyword keyword matched d := by
  unfold stepKeyword
  cases hnext : keyword[matched]? with
  | none => simp only [if_pos hc, if_pos hd]
  | some next =>
    have hne : c ≠ next := ne_of_getElem?_of_notMem hnext hnotc
    have hne' : d ≠ next := ne_of_getElem?_of_notMem hnext hnotd
    simp only [if_neg hne, if_neg hne', if_pos hc, if_pos hd]

namespace Clause

/-- Every separator has the same outcome in a clause, unless it belongs to a text in quotes. -/
theorem step_eq_of_isSeparator {clause : Clause} {scope : Scope}
    (hquotes : (State.inClause clause scope).inQuotes = false) (hc : isSeparator c = true)
    (hd : isSeparator d = true) : clause.step c = clause.step d := by
  have hne : ∀ {letter : Char}, isSeparator letter = false → c ≠ letter ∧ d ≠ letter :=
    fun hletter => ⟨ne_of_isSeparator hc hletter, ne_of_isSeparator hd hletter⟩
  cases clause with
  | inProperty token => simp only [step, if_pos hc, if_pos hd]
  | beforeOperator property => simp only [step, if_pos hc, if_pos hd]
  | afterSymbol property operator =>
    obtain ⟨hequal, hequal'⟩ := @hne '=' (by decide)
    simp only [step, stepSymbol, if_neg hequal, if_neg hequal', if_pos hc, if_pos hd]
  | afterD property =>
    obtain ⟨he, he'⟩ := @hne 'e' (by decide)
    obtain ⟨ho, ho'⟩ := @hne 'o' (by decide)
    simp only [step, stepLetterD, if_neg he, if_neg he', if_neg ho, if_neg ho', if_pos hc,
      if_pos hd]
  | inKeyword property operator matched =>
    have hkeyword := stepKeyword_eq_of_isSeparator matched hc (notMem_operator hc operator) hd
      (notMem_operator hd operator)
    simp only [step, hkeyword]
  | beforeOperand property operator spaced => simp only [step, if_pos hc, if_pos hd]
  | inText => cases hquotes
  | inFlag property value matched =>
    simp only [step, stepFlag]
    cases hnext : (flagLiteral value).toList[matched]? with
    | none => simp only [hc, hd, Bool.true_or, if_true]
    | some next =>
      have hother : c ≠ next := ne_of_getElem?_of_notMem hnext (notMem_flagLiteral hc value)
      have hother' : d ≠ next := ne_of_getElem?_of_notMem hnext (notMem_flagLiteral hd value)
      simp only [if_neg hother, if_neg hother']

/-- A separator leads a clause to one that no further separator changes, unless it belongs to a
text in quotes. -/
theorem Moves.step_of_isSeparator {clause clause' : Clause} {scope : Scope}
    (hmoves : clause.Moves c (.more clause'))
    (hquotes : (State.inClause clause scope).inQuotes = false) (hc : isSeparator c = true)
    (hd : isSeparator d = true) : clause'.step d = .ok (.more clause') := by
  have hletter : ∀ {word letters : List Char} {count : Nat}, c ∉ word →
      word.take count = letters → c ∉ letters := by
    rintro word letters count hword rfl hmem
    exact hword (List.mem_of_mem_take hmem)
  cases hmoves with
  | property hword =>
    rw [hc] at hword
    cases hword
  | endProperty => rw [step, if_pos hd]
  | idleOperator => rw [step, if_pos hd]
  | equals => exact absurd hc (by decide)
  | symbol _ htake => exact absurd List.mem_cons_self (hletter (notMem_operator hc _) htake)
  | word _ htake => exact absurd List.mem_cons_self (hletter (notMem_operator hc _) htake)
  | letterD => exact absurd hc (by decide)
  | symbolEquals => exact absurd hc (by decide)
  | endSymbol => rw [step, if_pos hd]
  | secondLetter _ htake =>
    exact absurd (List.mem_cons_of_mem _ List.mem_cons_self)
      (hletter (notMem_operator hc _) htake)
  | letter hnext => exact absurd rfl (ne_of_getElem?_of_notMem hnext (notMem_operator hc _))
  | endKeyword => rw [step, if_pos hd]
  | idleOperand => rw [step, if_pos hd]
  | quote => exact absurd hc (by decide)
  | flag htake => exact absurd List.mem_cons_self (hletter (notMem_flagLiteral hc _) htake)
  | backslash => cases hquotes
  | escaped => cases hquotes
  | plain => cases hquotes
  | flagLetter hnext => exact absurd rfl (ne_of_getElem?_of_notMem hnext (notMem_flagLiteral hc _))

end Clause

namespace State

/-- Outside of quotes every separator has the same outcome. -/
theorem step_eq_of_isSeparator {state : State} (hquotes : state.inQuotes = false)
    (hc : isSeparator c = true) (hd : isSeparator d = true) :
    state.step limits c = state.step limits d := by
  cases state with
  | start depth => simp only [step, stepStart, if_pos hc, if_pos hd]
  | wildcard => simp only [step, if_pos hc, if_pos hd]
  | inClause clause scope =>
    have hafter : ∀ operand, stepAfterOperand limits operand scope c =
        stepAfterOperand limits operand scope d := by
      intro operand
      simp only [stepAfterOperand, if_pos hc, if_pos hd]
    simp only [step, Clause.step_eq_of_isSeparator hquotes hc hd, hafter]
  | afterOperand operand scope => simp only [step, stepAfterOperand, if_pos hc, if_pos hd]
  | inJunction junction matched scope =>
    have hkeyword := stepKeyword_eq_of_isSeparator matched hc (notMem_junction hc junction) hd
      (notMem_junction hd junction)
    simp only [step, hkeyword]
  | afterJunction junction scope => simp only [step, stepAfterJunction, if_pos hc, if_pos hd]

/-- Outside of quotes a separator leads to a state that no further one changes. -/
theorem Moves.step_of_isSeparator {state next : State} (hmoves : Moves limits state c next)
    (hquotes : state.inQuotes = false) (hc : isSeparator c = true) (hd : isSeparator d = true) :
    next.step limits d = .ok next := by
  induction hmoves with
  | idle hawaits =>
    cases hawaits with
    | start depth => rw [step, stepStart, if_pos hd]
    | afterJunction junction scope => rw [step, stepAfterJunction, if_pos hd]
  | wildcard => exact absurd hc (by decide)
  | idleWildcard => rw [step, if_pos hd]
  | openFirst => exact absurd hc (by decide)
  | openSide => exact absurd hc (by decide)
  | begin _ hproperty =>
    have hword := hproperty.no_separator _ List.mem_cons_self
    rw [hc] at hword
    cases hword
  | more hclause => simp only [step, hclause.step_of_isSeparator hquotes hc hd]
  | closed hclause =>
    cases hclause with
    | unquote => exact absurd hc (by decide)
  | ended _ _ ih => exact ih rfl hc
  | idleOperand => rw [step, stepAfterOperand, if_pos hd]
  | close => exact absurd hc (by decide)
  | @junction junction _ _ _ hletter =>
    have hmem : _ ∈ junction.keyword.toList.take 1 := hletter ▸ List.mem_cons_self
    exact absurd (List.mem_of_mem_take hmem) (notMem_junction hc junction)
  | letter hnext => exact absurd rfl (ne_of_getElem?_of_notMem hnext (notMem_junction hc _))
  | endKeyword => rw [step, stepAfterJunction, if_pos hd]

/-- Outside of quotes every run of separators has the outcome of any other, be it a state or a
refusal. -/
theorem run_eq_of_gap {state : State} {gap gap' : List Char} (hquotes : state.inQuotes = false)
    (hgap : Gap gap) (hgap' : Gap gap') : state.run limits gap = state.run limits gap' := by
  have hfirst : ∀ {gap : List Char}, Gap gap → state.run limits gap = state.step limits ' ' := by
    intro gap hgap
    obtain ⟨hnonempty, hblank⟩ := hgap
    cases gap with
    | nil => exact absurd rfl hnonempty
    | cons c rest =>
      obtain ⟨hc, hrest⟩ := blank_cons.mp hblank
      have hspace : state.step limits c = state.step limits ' ' :=
        step_eq_of_isSeparator hquotes hc (by decide)
      rw [run_cons, hspace]
      cases hstep : state.step limits ' ' with
      | error cause => rfl
      | ok next =>
        have hidle : ∀ d, isSeparator d = true → next.step limits d = .ok next :=
          fun d hd => (moves_of_step hstep).step_of_isSeparator hquotes (by decide) hd
        exact run_blank hrest hidle
  rw [hfirst hgap, hfirst hgap']

end State

end Reader

namespace Query

/-- Wherever a reader is not in quotes, any run of separators may stand for any other: the text
tells the same query, or it is refused for the same cause. -/
theorem parse_eq_of_gap (limits : Limits) {before gap gap' : String}
    (hquotes : ∀ reader, (Reader.new limits).feed before = .ok reader →
      reader.state.inQuotes = false)
    (hgap : Gap gap.toList) (hgap' : Gap gap'.toList) (after : String) :
    parse limits (before ++ gap ++ after) = parse limits (before ++ gap' ++ after) := by
  simp only [parse_eq, String.toList_append, List.append_assoc, Reader.State.run_append]
  cases hrun : (Reader.State.start 0).run limits before.toList with
  | error cause => rfl
  | ok state =>
    have hfeed := Reader.feed_of_run hrun
    rw [String.ofList_toList] at hfeed
    have hstate : state.inQuotes = false := hquotes ⟨limits, state⟩ hfeed
    have hgaps : state.run limits gap.toList = state.run limits gap'.toList :=
      Reader.State.run_eq_of_gap hstate hgap hgap'
    simp only [Except.bind, hgaps]

/-- A keyword that a separator breaks off is quoted without the separator. -/
theorem parse_eq_of_gap_broken :
    (∀ reader, (Reader.new ⟨0, 2⟩).feed "a exists true an" = .ok reader →
        reader.state.inQuotes = false) ∧
      Gap " ".toList ∧ Gap "\t\n\r".toList ∧
      parse ⟨0, 2⟩ ("a exists true an" ++ "\t\n\r" ++ "d b = \"\"") =
        .error (.unexpectedOperator "an") := by
  have hquotes : ∀ reader, (Reader.new ⟨0, 2⟩).feed "a exists true an" = .ok reader →
      reader.state.inQuotes = false := by
    intro reader hfeed
    obtain rfl := Except.ok.inj hfeed
    rfl
  have hgap : Gap " ".toList := gap_singleton rfl
  have hgap' : Gap "\t\n\r".toList := ⟨by decide, by simp [separators]⟩
  have hequal := parse_eq_of_gap ⟨0, 2⟩ hquotes hgap hgap' "d b = \"\""
  have hspace : parse ⟨0, 2⟩ ("a exists true an" ++ " " ++ "d b = \"\"") =
      .error (.unexpectedOperator "an") := rfl
  exact ⟨hquotes, hgap, hgap', hequal.symm.trans hspace⟩

end Query

end SearchCriteria
