import SearchCriteria.Proofs.Reader.Move
import SearchCriteria.Proofs.Reader.Phrase
import SearchCriteria.Reader.Trace

/-!
# The trace of a phrase

The trace of a text is put together from the traces of its parts, and so are the number of
parentheses that enclose expressions and the text without separators outside of quotes. For a
phrase of the grammar both are read off its outline, whatever the chain and the limits are.
-/

namespace SearchCriteria.Reader.State

open Grammar

variable {limits : Limits}

/-- The opening parentheses that enclose expressions when the text is read from the state. -/
def groupsIn (limits : Limits) (state : State) (text : List Char) : Nat :=
  (state.trace limits text).countP fun (state, c) => state.mayGroup && c = '('

/-- The text that is read from the state, without the separators outside of quotes. -/
def condensedIn (limits : Limits) (state : State) (text : List Char) : List Char :=
  ((state.trace limits text).filter fun (state, c) => state.inQuotes || !isSeparator c).map (·.2)

/-- The trace goes on from where reading has come to. -/
theorem trace_append {state next : State} {text : List Char}
    (hrun : state.run limits text = .ok next) (more : List Char) :
    state.trace limits (text ++ more) = state.trace limits text ++ next.trace limits more := by
  induction text generalizing state with
  | nil =>
    obtain rfl := Except.ok.inj hrun
    rfl
  | cons c rest ih =>
    obtain ⟨between, hstep, hrest⟩ := exists_of_run_cons hrun
    simp only [List.cons_append, trace, hstep, ih hrest]

/-- `state.Takes limits text groups condensed next`: the text leads to the next state, with so
many parentheses that enclose expressions, and it is condensed to the other text. -/
structure Takes (limits : Limits) (state : State) (text : List Char) (groups : Nat)
    (condensed : List Char) (next : State) : Prop where
  run_eq : state.run limits text = .ok next
  groupsIn_eq : state.groupsIn limits text = groups
  condensedIn_eq : state.condensedIn limits text = condensed

/-- What is taken of two texts adds up. -/
theorem Takes.append {state between next : State} {text more condensed condensed' : List Char}
    {groups groups' : Nat} (hfirst : state.Takes limits text groups condensed between)
    (hmore : between.Takes limits more groups' condensed' next) :
    state.Takes limits (text ++ more) (groups + groups') (condensed ++ condensed') next := by
  obtain ⟨hrun, rfl, rfl⟩ := hfirst
  obtain ⟨hrun', rfl, rfl⟩ := hmore
  refine ⟨by rw [run_append_of_run hrun, hrun'], ?_, ?_⟩
  · simp only [groupsIn, trace_append hrun, List.countP_append]
  · simp only [condensedIn, trace_append hrun, List.filter_append, List.map_append]

/-- A parenthesis that may enclose expressions counts. -/
theorem takes_open {state next : State} (hstate : state.mayGroup = true)
    (hstep : state.step limits '(' = .ok next) : state.Takes limits ['('] 1 ['('] next := by
  have hword : isSeparator '(' = false := by decide
  refine ⟨by rw [run_cons_of_step hstep, run_nil], ?_, ?_⟩
  · simp [groupsIn, trace, hstep, hstate]
  · simp [condensedIn, trace, hstep, hword]

/-- Any other character does not count, and is kept unless it is a separator outside of
quotes. -/
theorem takes_kept {state next : State} {c : Char} (hstep : state.step limits c = .ok next)
    (hplain : state.mayGroup = false ∨ c ≠ '(')
    (hkept : state.inQuotes = true ∨ isSeparator c = false) :
    state.Takes limits [c] 0 [c] next := by
  refine ⟨by rw [run_cons_of_step hstep, run_nil], ?_, ?_⟩
  · rcases hplain with hplain | hplain <;> simp [groupsIn, trace, hstep, hplain]
  · rcases hkept with hkept | hkept <;> simp [condensedIn, trace, hstep, hkept]

/-- A separator outside of quotes leaves nothing. -/
theorem takes_separator {state next : State} {c : Char} (hstep : state.step limits c = .ok next)
    (hquotes : state.inQuotes = false) (hc : isSeparator c = true) :
    state.Takes limits [c] 0 [] next := by
  have hopen : c ≠ '(' := ne_of_isSeparator hc (by decide)
  refine ⟨by rw [run_cons_of_step hstep, run_nil], ?_, ?_⟩
  · simp [groupsIn, trace, hstep, hopen]
  · simp [condensedIn, trace, hstep, hquotes, hc]

/-- Only behind a separator may a parenthesis enclose expressions. -/
theorem Moves.mayGroup_eq_false {state next : State} {c : Char}
    (hmoves : Moves limits state c next) (hc : isSeparator c = false)
    (hstate : state.mayGroup = false) : next.mayGroup = false := by
  induction hmoves with
  | idle => exact hstate
  | openFirst => cases hstate
  | openSide => cases hstate
  | ended _ _ ih => exact ih hc rfl
  | endKeyword _ hseparator =>
    rw [hseparator] at hc
    cases hc
  | _ => rfl

/-- Only a quote leads into quotes. -/
theorem Moves.inQuotes_eq_false {state next : State} {c : Char}
    (hmoves : Moves limits state c next) (hc : c ≠ '"') (hstate : state.inQuotes = false) :
    next.inQuotes = false := by
  induction hmoves with
  | idle => exact hstate
  | more hclause =>
    cases hclause with
    | quote => exact absurd rfl hc
    | backslash => cases hstate
    | escaped => cases hstate
    | plain => cases hstate
    | _ => rfl
  | ended _ _ ih => exact ih hc rfl
  | _ => rfl

/-- Where a parenthesis would enclose no expressions, a word is kept whole and groups nothing. -/
theorem takes_word {state next : State} {word : List Char} (hstate : state.mayGroup = false)
    (hword : ∀ c ∈ word, isSeparator c = false) (hrun : state.run limits word = .ok next) :
    state.Takes limits word 0 word next := by
  induction word generalizing state with
  | nil => exact ⟨hrun, rfl, rfl⟩
  | cons c rest ih =>
    obtain ⟨hc, hrest⟩ := List.forall_mem_cons.mp hword
    obtain ⟨between, hstep, hmore⟩ := exists_of_run_cons hrun
    have hbetween := (moves_of_step hstep).mayGroup_eq_false hc hstate
    exact (takes_kept hstep (.inl hstate) (.inr hc)).append (ih hbetween hrest hmore)

/-- Without parentheses and quotes, nothing is grouped and only separators are deleted. -/
theorem takes_plain {state next : State} {text : List Char} (hstate : state.inQuotes = false)
    (hplain : ∀ c ∈ text, c ≠ '(' ∧ c ≠ '"') (hrun : state.run limits text = .ok next) :
    state.Takes limits text 0 (text.filter fun c => !isSeparator c) next := by
  induction text generalizing state with
  | nil => exact ⟨hrun, rfl, rfl⟩
  | cons c rest ih =>
    obtain ⟨⟨hopen, hquote⟩, hrest⟩ := List.forall_mem_cons.mp hplain
    obtain ⟨between, hstep, hmore⟩ := exists_of_run_cons hrun
    have hbetween := (moves_of_step hstep).inQuotes_eq_false hquote hstate
    have htakes := ih hbetween hrest hmore
    cases hc : isSeparator c with
    | true =>
      have hfilter : (c :: rest).filter (fun c => !isSeparator c) =
          [] ++ rest.filter fun c => !isSeparator c := by simp [hc]
      rw [hfilter]
      exact (takes_separator hstep hstate hc).append htakes
    | false =>
      have hfilter : (c :: rest).filter (fun c => !isSeparator c) =
          [c] ++ rest.filter fun c => !isSeparator c := by simp [hc]
      rw [hfilter]
      exact (takes_kept hstep (.inr hopen) (.inr hc)).append htakes

/-- Whether a character neither groups nor quotes nor separates. -/
def isPlain (c : Char) : Bool := c != '(' && c != '"' && !isSeparator c

/-- Of a word and the separators behind it, the word is kept. -/
theorem takes_spaced {state next : State} {word blank : List Char}
    (hstate : state.inQuotes = false)
    (hword : word.all isPlain = true) (hblank : Blank blank)
    (hrun : state.run limits (word ++ blank) = .ok next) :
    state.Takes limits (word ++ blank) 0 word next := by
  have hchars : ∀ c ∈ word, (c ≠ '(' ∧ c ≠ '"') ∧ isSeparator c = false := by
    simpa only [List.all_eq_true, isPlain, Bool.and_eq_true, bne_iff_ne, Bool.not_eq_true']
      using hword
  have hplain : ∀ c ∈ word ++ blank, c ≠ '(' ∧ c ≠ '"' :=
    List.forall_mem_append.mpr ⟨fun c hc => (hchars c hc).1, hblank.plain⟩
  have hkept : word.filter (fun c => !isSeparator c) = word :=
    List.filter_eq_self.mpr fun c hc => by simp [(hchars c hc).2]
  have htakes := takes_plain hstate hplain hrun
  rwa [List.filter_append, hkept, hblank.filter_eq_nil, List.append_nil] at htakes

/-- Separators outside of quotes leave nothing. -/
theorem takes_blank {state next : State} {blank : List Char} (hstate : state.inQuotes = false)
    (hblank : Blank blank) (hrun : state.run limits blank = .ok next) :
    state.Takes limits blank 0 [] next := by
  have hnone : ([] : List Char).all isPlain = true := rfl
  exact takes_spaced hstate hnone hblank hrun

/-- Before an expression a parenthesis encloses expressions. -/
theorem Awaits.mayGroup_eq_true {state : State} {first : Bool} {scope : Scope}
    (hawaits : state.Awaits first scope) : state.mayGroup = true := by
  cases hawaits <;> rfl

/-- Before an expression no quote is open. -/
theorem Awaits.inQuotes_eq_false {state : State} {first : Bool} {scope : Scope}
    (hawaits : state.Awaits first scope) : state.inQuotes = false := by
  cases hawaits <;> rfl

/-- Behind an expression no quote is open. -/
theorem Ends.inQuotes_eq_false {state : State} {closed : Bool} {operand : Query} {scope : Scope}
    (hends : state.Ends closed operand scope) : state.inQuotes = false := by
  cases hends <;> rfl

section Expression

variable {scope : Scope}

/-- A property is kept whole. -/
theorem Awaits.takes_name {state : State} {first : Bool} {property : String}
    (hawaits : state.Awaits first scope) (hproperty : Property first property.toList) :
    state.Takes limits property.toList 0 property.toList
      (.inClause (.inProperty property) scope) := by
  have hrun : state.run limits property.toList = .ok (.inClause (.inProperty property) scope) :=
    hawaits.run_name hproperty
  cases hlist : property.toList with
  | nil => exact absurd hlist hproperty.nonempty
  | cons c rest =>
    rw [hlist] at hproperty hrun
    have hstep : state.step limits c = .ok (.inClause (.inProperty (String.singleton c)) scope) :=
      hawaits.step_property hproperty
    rw [run_cons_of_step hstep] at hrun
    obtain ⟨hc, hrest⟩ := List.forall_mem_cons.mp hproperty.no_separator
    have hopen : c ≠ '(' := fun h => hproperty.no_open (by simp [h])
    exact (takes_kept hstep (.inr hopen) (.inr hc)).append (takes_word rfl hrest hrun)

/-- Of an operator and the separators around it, the operator is kept. -/
theorem takes_operator (limits : Limits) (scope : Scope) (property : String)
    (operator : Operator) {gap gap' : List Char} (hgap : Gap gap) (hgap' : Gap gap') :
    (inClause (.inProperty property) scope).Takes limits (gap ++ (operator.keyword.toList ++ gap'))
      0 operator.keyword.toList (.inClause (.beforeOperand property operator true) scope) := by
  have hword : operator.keyword.toList.all isPlain = true := by
    cases operator with
    | existence => decide
    | compare comparison => cases comparison <;> decide
  have hbefore : (inClause (.inProperty property) scope).Takes limits gap 0 []
      (.inClause (.beforeOperator property) scope) :=
    takes_blank rfl hgap.2 (run_property_gap property hgap)
  exact hbefore.append (takes_spaced rfl hword hgap'.2 (run_operator property operator hgap'))

/-- Inside quotes everything is kept, and nothing groups. -/
theorem takes_escape (limits : Limits) (scope : Scope) (property : String)
    (operator : Operator) (content : String) (text : List Char) :
    (inClause (.inText property operator content false) scope).Takes limits (Text.escape text) 0
      (Text.escape text)
      (.inClause (.inText property operator (content ++ String.ofList text) false) scope) := by
  induction text generalizing content with
  | nil => exact ⟨run_escape property operator content [], rfl, rfl⟩
  | cons c rest ih =>
    have hrest := ih (content.push c)
    rw [Text.push_append_ofList] at hrest
    rw [Text.escape_cons]
    by_cases hc : Text.needsBackslash c = true
    · rw [if_pos hc]
      have hbackslash : (inClause (.inText property operator content false) scope).Takes limits
          ['\\'] 0 ['\\'] (.inClause (.inText property operator content true) scope) :=
        takes_kept (step_backslash property operator content) (.inl rfl) (.inl rfl)
      have hescaped : (inClause (.inText property operator content true) scope).Takes limits
          [c] 0 [c] (.inClause (.inText property operator (content.push c) false) scope) :=
        takes_kept (step_escaped property operator content hc) (.inl rfl) (.inl rfl)
      exact (hbackslash.append hescaped).append hrest
    · rw [if_neg hc]
      have hplain : (inClause (.inText property operator content false) scope).Takes limits
          [c] 0 [c] (.inClause (.inText property operator (content.push c) false) scope) :=
        takes_kept (step_plain property operator content hc) (.inl rfl) (.inl rfl)
      exact hplain.append hrest

/-- An operand is kept whole. -/
theorem takes_operand (limits : Limits) (scope : Scope) (property : String)
    (relation : Relation) :
    ∃ next : State,
      (inClause (.beforeOperand property relation.operator true) scope).Takes limits
        relation.operand.print.toList 0 relation.operand.print.toList next := by
  cases relation with
  | existence present =>
    obtain ⟨next, hrun, -⟩ := run_operand limits scope property (.existence present)
    have hletters : (Relation.existence present).operand.print.toList.all
        (fun c => !isSeparator c) = true := by
      cases present <;> decide
    have hword : ∀ c ∈ (Relation.existence present).operand.print.toList,
        isSeparator c = false := by
      simpa only [List.all_eq_true, Bool.not_eq_true'] using hletters
    exact ⟨next, takes_word rfl hword hrun⟩
  | compare comparison value =>
    have hopen : (inClause (.beforeOperand property (.compare comparison) true) scope).Takes limits
        ['"'] 0 ['"'] (.inClause (.inText property (.compare comparison) "" false) scope) :=
      takes_kept rfl (.inl rfl) (.inr (by decide))
    have htext : (inClause (.inText property (.compare comparison) "" false) scope).Takes limits
        (Text.escape value.toList) 0 (Text.escape value.toList)
        (.inClause (.inText property (.compare comparison) value false) scope) := by
      have hcontent : "" ++ String.ofList value.toList = value := by
        rw [String.ofList_toList, String.empty_append]
      have hescape := takes_escape limits scope property (.compare comparison) "" value.toList
      rwa [hcontent] at hescape
    have hclose : (inClause (.inText property (.compare comparison) value false) scope).Takes limits
        ['"'] 0 ['"']
        (.afterOperand (.relational property (.compare comparison value)) scope) :=
      takes_kept rfl (.inl rfl) (.inl rfl)
    refine ⟨.afterOperand (.relational property (.compare comparison value)) scope, ?_⟩
    rw [Relation.operand, Operand.print, Text.toList_quote, Relation.operator]
    exact hopen.append (htext.append hclose)

/-- Of an expression everything but the separators around its operator is kept. -/
theorem Awaits.takes_expression {state : State} {first : Bool} {level : Level}
    {property : String} {gap gap' : List Char} {relation : Relation}
    (hawaits : state.Awaits first scope)
    (hfits : (Outline.expression property gap relation gap').Fits level first) :
    ∃ next : State, state.Takes limits (Outline.expression property gap relation gap').text 0
      (Outline.expression property gap relation gap').condensed next := by
  obtain ⟨hproperty, hgap, hgap'⟩ := hfits
  obtain ⟨next, hoperand⟩ := takes_operand limits scope property relation
  refine ⟨next, ?_⟩
  have hoperator := takes_operator limits scope property relation.operator hgap hgap'
  have htakes := (hawaits.takes_name hproperty).append (hoperator.append hoperand)
  simpa only [Outline.text, Outline.condensed, List.append_assoc] using htakes

end Expression

/-- A parenthesis that is read before an expression opens a group. -/
theorem Awaits.of_step_open {state next : State} {first : Bool} {scope : Scope}
    (hawaits : state.Awaits first scope) (hstep : state.step limits '(' = .ok next) :
    ∃ scope', next.Awaits first scope' ∧ state.Takes limits ['('] 1 ['('] next := by
  have hroom : scope.depth < limits.maxNestingDepth := by
    cases hawaits with
    | start depth =>
      obtain ⟨_, hopen, -⟩ := exists_of_map_eq_ok hstep
      exact (openParenthesis_eq_ok hopen).1
    | afterJunction junction scope =>
      obtain ⟨_, hopen, -⟩ := exists_of_bind_eq_ok hstep
      exact (openParenthesis_eq_ok hopen).1
  obtain ⟨opened, hopen, hopened⟩ := hawaits.step_open hroom
  obtain rfl := Except.ok.inj (hopen.symm.trans hstep)
  exact ⟨_, hopened, takes_open hawaits.mayGroup_eq_true hstep⟩

/-- A parenthesis that is read behind an expression closes a group. -/
theorem Ends.of_step_close {state next : State} {closed : Bool} {operand : Query} {scope : Scope}
    (hends : state.Ends closed operand scope) (hstep : state.step limits ')' = .ok next) :
    ∃ scope', next.Ends true operand scope' ∧ state.Takes limits [')'] 0 [')'] next := by
  obtain ⟨chain, depth⟩ := scope
  cases depth with
  | zero =>
    rw [hends.step_close_eq_error] at hstep
    cases hstep
  | succ depth =>
    obtain rfl := Except.ok.inj (hends.step_close.symm.trans hstep)
    exact ⟨_, .closed operand _, takes_kept hstep (.inr (by decide)) (.inr (by decide))⟩

/-- A junction that is read behind an operand had room. -/
theorem room_of_run_junction {operand : Query} {scope : Scope} {junction : Junction}
    {more : List Char} {next : State}
    (hrun : (afterOperand operand scope).run limits (junction.keyword.toList ++ more) = .ok next) :
    scope.chain.joined + 2 ≤ limits.maxTerms := by
  obtain ⟨begun, hbegin⟩ : ∃ begun, beginJunction limits junction operand scope = .ok begun := by
    cases junction with
    | and =>
      obtain ⟨begun, hstep, -⟩ := exists_of_run_cons hrun
      exact ⟨begun, hstep⟩
    | or =>
      obtain ⟨begun, hstep, -⟩ := exists_of_run_cons hrun
      exact ⟨begun, hstep⟩
  exact (beginJunction_eq_ok hbegin).1

/-- A junction and the separators behind it lead to its right side, and the junction is kept. -/
theorem exists_takes_junction {operand : Query} {scope : Scope} {junction : Junction}
    {gap more : List Char} {next : State} (hgap : Gap gap)
    (hrun : (afterOperand operand scope).run limits (junction.keyword.toList ++ (gap ++ more)) =
      .ok next) :
    ∃ scope', (afterOperand operand scope).Takes limits (junction.keyword.toList ++ gap) 0
      junction.keyword.toList (.afterJunction junction scope') := by
  have hword : junction.keyword.toList.all isPlain = true := by cases junction <;> decide
  have hroom := room_of_run_junction hrun
  exact ⟨_, takes_spaced rfl hword hgap.2 (run_junction junction hroom hgap)⟩

/-- Where a phrase that is read begins, its groups are those of the outline, and it is condensed
to the text of the outline without separators. -/
theorem Awaits.takes_outline {outline : Outline} {level : Level} {first : Bool}
    {state next : State} {scope : Scope} (hfits : outline.Fits level first)
    (hawaits : state.Awaits first scope) (hrun : state.run limits outline.text = .ok next) :
    (∃ operand scope', next.Ends outline.closed operand scope') ∧
      state.Takes limits outline.text outline.groups outline.condensed next := by
  induction outline generalizing level first state scope next with
  | expression property gap relation gap' =>
    obtain ⟨last, hlast, hends⟩ := hawaits.run_expression limits hfits
    obtain ⟨last', htakes⟩ := hawaits.takes_expression hfits
    obtain rfl := Except.ok.inj (hlast.symm.trans hrun)
    obtain rfl := Except.ok.inj (htakes.run_eq.symm.trans hrun)
    exact ⟨⟨_, _, hends⟩, htakes⟩
  | group blank inner blank' ih =>
    obtain ⟨hblank, hinner, hblank'⟩ := hfits
    obtain ⟨opened, hopen, hrest⟩ := exists_of_run_cons hrun
    obtain ⟨within, hopened, hopenTakes⟩ := hawaits.of_step_open hopen
    have hbefore : opened.run limits blank = .ok opened := hopened.run_blank hblank
    rw [List.append_assoc, List.append_assoc, run_append_of_run hbefore] at hrest
    obtain ⟨last, hinnerRun, hrest⟩ := exists_of_run_append hrest
    obtain ⟨⟨operand, behind, hends⟩, hinnerTakes⟩ := ih hinner hopened hinnerRun
    obtain ⟨last', hafter, hends'⟩ := hends.run_blank limits hblank'
    rw [run_append_of_run hafter] at hrest
    obtain ⟨closed, hclose, hdone⟩ := exists_of_run_cons hrest
    obtain rfl := Except.ok.inj hdone
    obtain ⟨outside, hclosed, hcloseTakes⟩ := hends'.of_step_close hclose
    have hblankTakes := takes_blank hopened.inQuotes_eq_false hblank hbefore
    have hblankTakes' := takes_blank hends.inQuotes_eq_false hblank' hafter
    have htakes := hopenTakes.append
      (hblankTakes.append (hinnerTakes.append (hblankTakes'.append hcloseTakes)))
    refine ⟨⟨operand, outside, hclosed⟩, ?_⟩
    simpa [Outline.text, Outline.groups, Outline.condensed, Nat.add_comm] using htakes
  | joined junction left blank gap right ihleft ihright =>
    obtain ⟨-, hleft, hblank, hclosed, hgap, hright⟩ := hfits
    rw [Outline.text, List.append_assoc, List.append_assoc, List.append_assoc] at hrun
    obtain ⟨last, hleftRun, hrest⟩ := exists_of_run_append hrun
    obtain ⟨⟨operand, behind, hends⟩, hleftTakes⟩ := ihleft hleft hawaits hleftRun
    have hbetween : last.run limits blank = .ok (.afterOperand operand behind) :=
      hends.run_blank_closed hblank hclosed
    rw [run_append_of_run hbetween] at hrest
    obtain ⟨beyond, hjunctionTakes⟩ := exists_takes_junction hgap hrest
    rw [← List.append_assoc, run_append_of_run hjunctionTakes.run_eq] at hrest
    obtain ⟨hends', hrightTakes⟩ := ihright hright (.afterJunction junction beyond) hrest
    have hblankTakes := takes_blank hends.inQuotes_eq_false hblank hbetween
    have htakes := hleftTakes.append (hblankTakes.append (hjunctionTakes.append hrightTakes))
    refine ⟨hends', ?_⟩
    simpa [Outline.text, Outline.groups, Outline.condensed] using htakes

end SearchCriteria.Reader.State
