import SearchCriteria.Proofs.Reader.Move
import SearchCriteria.Reader.Stop

/-!
# What has been read last

A state tells how the text in front of it ends. Where a keyword or a text in quotes is being read,
it also tells where that began: behind a property, behind an expression, or behind an operator. So
what has been read of a keyword goes on with no other word that may stand there.
-/

namespace SearchCriteria.Reader

open Grammar

variable {limits : Limits} {text : List Char} {c : Char}

/-- `Spells limits text keyword matched`: the text ends with so many letters of the keyword, and
of all words that may stand where they begin they belong to this one only. -/
def Spells (limits : Limits) (text : List Char) (keyword : String) (matched : Nat) : Prop :=
  ∃ before place, (State.start 0).run limits before = .ok place ∧
    text = before ++ keyword.toList.take matched ∧ keyword ∈ place.words ∧
    ∀ word ∈ place.words, keyword.toList.take matched <+: word.toList → word = keyword

/-- The next letter of the keyword spells more of it. -/
theorem Spells.concat {keyword : String} {matched : Nat}
    (hspells : Spells limits text keyword matched) (hnext : keyword.toList[matched]? = some c) :
    Spells limits (text ++ [c]) keyword (matched + 1) := by
  obtain ⟨before, place, hrun, rfl, hmem, honly⟩ := hspells
  have htake := take_succ_of_getElem? hnext
  refine ⟨before, place, hrun, by rw [htake, List.append_assoc], hmem, ?_⟩
  intro word hword hletters
  apply honly word hword
  rw [htake] at hletters
  exact (List.prefix_append _ _).trans hletters

/-- Behind a property, letters that begin one operator only spell that operator. -/
theorem Spells.operator {property : String} {scope : Scope} {operator : Operator}
    {letters : List Char} {matched : Nat}
    (hrun : (State.start 0).run limits text = .ok (.inClause (.beforeOperator property) scope))
    (hletters : operator.keyword.toList.take matched = letters)
    (honly : ∀ other ∈ Operator.all, letters <+: other.keyword.toList → other = operator) :
    Spells limits (text ++ letters) operator.keyword matched := by
  refine ⟨text, _, hrun, by rw [hletters], List.mem_map_of_mem (Operator.mem_all operator), ?_⟩
  intro word hword hbegins
  obtain ⟨other, hother, rfl⟩ := List.mem_map.mp hword
  rw [hletters] at hbegins
  rw [honly other hother hbegins]

/-- A symbol that is an operator of its own has no second character. -/
theorem take_symbol {operator : Operator}
    (hsymbol : operator = .compare .notEquals ∨ operator = .compare .lessThan ∨
      operator = .compare .greaterThan)
    (hcomplete : operator ≠ .compare .notEquals) :
    operator.keyword.toList.take 1 = operator.keyword.toList := by
  rcases hsymbol with rfl | rfl | rfl
  · exact absurd rfl hcomplete
  · rfl
  · rfl

/-- How a text ends that leads to a clause, where it is told by the clause. -/
def Clause.LastRead (limits : Limits) (text : List Char) (scope : Scope) : Clause → Prop
  | afterSymbol _ operator =>
    (operator = .compare .notEquals ∨ operator = .compare .lessThan ∨
        operator = .compare .greaterThan) ∧ operator.keyword.toList.take 1 <:+ text
  | afterD property =>
    ∃ before, (State.start 0).run limits before = .ok (.inClause (.beforeOperator property) scope) ∧
      text = before ++ ['d']
  | inKeyword _ operator matched => Spells limits text operator.keyword matched
  | beforeOperand _ operator spaced =>
    ∃ gap, Blank gap ∧ (spaced = false ↔ gap = []) ∧ operator.keyword.toList ++ gap <:+ text
  | inText property operator content escaped =>
    ∃ before, (State.start 0).run limits before =
        .ok (.inClause (.beforeOperand property operator true) scope) ∧
      text = before ++ '"' :: (Text.escape content.toList ++ if escaped then ['\\'] else [])
  | _ => True

/-- How a text ends that leads to a state, where it is told by the state. -/
def State.LastRead (limits : Limits) (text : List Char) : State → Prop
  | inClause clause scope => clause.LastRead limits text scope
  | inJunction junction matched _ => Spells limits text junction.keyword matched
  | afterJunction junction _ =>
    ∃ gap, (∀ c ∈ gap, isSeparator c = true ∨ c = '(') ∧ junction.keyword.toList ++ gap <:+ text
  | _ => True

namespace Clause

/-- Each move within a clause keeps how the text ends. -/
theorem LastRead.moves {clause clause' : Clause} {scope : Scope}
    (hrun : (State.start 0).run limits text = .ok (.inClause clause scope))
    (hlast : clause.LastRead limits text scope) (hmoves : clause.Moves c (.more clause')) :
    clause'.LastRead limits (text ++ [c]) scope := by
  cases hmoves with
  | property => trivial
  | endProperty => trivial
  | idleOperator => trivial
  | equals => exact ⟨[], by simp, by simp, List.suffix_append _ _⟩
  | symbol hsymbol hletter => exact ⟨hsymbol, hletter ▸ List.suffix_append _ _⟩
  | word hword hletter =>
    refine Spells.operator hrun hletter ?_
    rw [← hletter]
    rcases hword with rfl | rfl <;> decide
  | letterD => exact ⟨text, hrun, rfl⟩
  | @symbolEquals _ operator _ hwhole =>
    obtain ⟨hsymbol, hends⟩ := hlast
    have hequals : operator.keyword.toList.take 1 ++ ['='] <:+ text ++ ['='] :=
      List.suffix_append_self_iff.mpr hends
    refine ⟨[], blank_nil, by simp, ?_⟩
    rw [List.append_nil]
    rcases hsymbol with rfl | rfl | rfl <;> obtain rfl := Option.some.inj hwhole <;> exact hequals
  | endSymbol hcomplete hc =>
    obtain ⟨hsymbol, hends⟩ := hlast
    rw [take_symbol hsymbol hcomplete] at hends
    exact ⟨[c], (gap_singleton hc).2, by simp, List.suffix_append_self_iff.mpr hends⟩
  | secondLetter hword hletters =>
    obtain ⟨before, hbefore, rfl⟩ := hlast
    rw [List.append_assoc]
    refine Spells.operator hbefore hletters ?_
    rw [List.singleton_append, ← hletters]
    rcases hword with rfl | rfl <;> decide
  | letter hnext => exact hlast.concat hnext
  | endKeyword hmatched hc =>
    obtain ⟨before, place, -, rfl, -⟩ := hlast
    rw [List.take_of_length_le hmatched, List.append_assoc]
    exact ⟨[c], (gap_singleton hc).2, by simp, List.suffix_append _ _⟩
  | idleOperand hc =>
    obtain ⟨gap, hblank, -, hends⟩ := hlast
    refine ⟨gap ++ [c], (hblank.gap_concat hc).2, by simp, ?_⟩
    rw [← List.append_assoc]
    exact List.suffix_append_self_iff.mpr hends
  | quote => exact ⟨text, hrun, rfl⟩
  | flag => trivial
  | backslash =>
    obtain ⟨before, hbefore, rfl⟩ := hlast
    exact ⟨before, hbefore, by simp⟩
  | escaped hc =>
    obtain ⟨before, hbefore, rfl⟩ := hlast
    exact ⟨before, hbefore, by simp [Text.escape_cons, hc]⟩
  | plain hc =>
    obtain ⟨before, hbefore, rfl⟩ := hlast
    exact ⟨before, hbefore, by simp [Text.escape_cons, hc]⟩
  | flagLetter => trivial

end Clause

namespace State

/-- Behind an expression the words are the keywords of the junctions. -/
theorem Ends.words_eq {state : State} {closed : Bool} {operand : Query} {scope : Scope}
    (hends : state.Ends closed operand scope) : state.words = ["and", "or"] := by
  cases hends with
  | closed => rfl
  | flag => exact if_pos rfl

/-- Behind an expression, a letter that begins a junction spells that junction. -/
theorem Ends.spells {state : State} {closed : Bool} {operand : Query} {scope : Scope}
    {junction : Junction} (hends : state.Ends closed operand scope)
    (hrun : (start 0).run limits text = .ok state)
    (hletter : junction.keyword.toList.take 1 = [c]) :
    Spells limits (text ++ [c]) junction.keyword 1 := by
  refine ⟨text, state, hrun, by rw [hletter], ?_, ?_⟩
  · rw [hends.words_eq]
    cases junction <;> decide
  · rw [hends.words_eq]
    cases junction <;> decide

/-- What may touch a truth value begins no junction. -/
theorem take_keyword_ne_of_ended {clause : Clause} {operand : Query}
    (hclause : clause.Moves c (.ended operand)) (junction : Junction) :
    junction.keyword.toList.take 1 ≠ [c] := by
  cases hclause with
  | endFlag _ hc =>
    intro hletter
    cases junction with
    | and =>
      obtain rfl := (List.cons.inj hletter).1
      exact absurd hc (by decide)
    | or =>
      obtain rfl := (List.cons.inj hletter).1
      exact absurd hc (by decide)

/-- Behind a junction separators and parentheses only go on with what stands behind it. -/
theorem lastRead_concat {junction : Junction} {scope scope' : Scope}
    (hlast : (afterJunction junction scope).LastRead limits text)
    (hc : isSeparator c = true ∨ c = '(') :
    (afterJunction junction scope').LastRead limits (text ++ [c]) := by
  obtain ⟨gap, hgap, hends⟩ := hlast
  refine ⟨gap ++ [c], ?_, ?_⟩
  · exact List.forall_mem_append.mpr ⟨hgap, by simpa using hc⟩
  · rw [← List.append_assoc]
    exact List.suffix_append_self_iff.mpr hends

/-- Each move keeps how the text ends. -/
theorem LastRead.moves {state next : State} (hrun : (start 0).run limits text = .ok state)
    (hlast : state.LastRead limits text) (hmoves : Moves limits state c next) :
    next.LastRead limits (text ++ [c]) := by
  cases hmoves with
  | idle hawaits hc =>
    cases hawaits with
    | start depth => trivial
    | afterJunction junction scope => exact lastRead_concat hlast (.inl hc)
  | wildcard => trivial
  | idleWildcard => trivial
  | openFirst => trivial
  | openSide => exact lastRead_concat hlast (.inr rfl)
  | begin => trivial
  | more hclause => exact Clause.LastRead.moves hrun hlast hclause
  | closed => trivial
  | ended hclause hmoves =>
    cases hmoves with
    | idle hawaits => cases hawaits
    | begin hawaits => cases hawaits
    | idleOperand => trivial
    | close => trivial
    | @junction junction _ _ _ hletter =>
      exact absurd hletter (take_keyword_ne_of_ended hclause junction)
  | idleOperand => trivial
  | close => trivial
  | junction hletter => exact Ends.spells (.closed _ _) hrun hletter
  | letter hnext => exact Spells.concat hlast hnext
  | endKeyword hmatched hc =>
    obtain ⟨before, place, -, rfl, -⟩ := hlast
    rw [List.take_of_length_le hmatched, List.append_assoc]
    exact ⟨[c], by simpa using Or.inl hc, List.suffix_append _ _⟩

/-- How a text ends that has been read is told by the state behind it. -/
theorem lastRead_of_run {before text : List Char} {state last : State}
    (hbefore : (start 0).run limits before = .ok state) (hstate : state.LastRead limits before)
    (hrun : state.run limits text = .ok last) : last.LastRead limits (before ++ text) := by
  induction text generalizing before state with
  | nil =>
    obtain rfl := Except.ok.inj hrun
    rwa [List.append_nil]
  | cons c rest ih =>
    obtain ⟨next, hstep, hrest⟩ := exists_of_run_cons hrun
    have hread : (start 0).run limits (before ++ [c]) = .ok next := by
      rw [run_append_of_run hbefore, run_cons_of_step hstep, run_nil]
    have hnext := ih hread (LastRead.moves hbefore hstate (moves_of_step hstep)) hrest
    rwa [List.append_assoc] at hnext

/-- How a text ends is told by the state to which it leads from the start. -/
theorem lastRead_of_run_start {text : List Char} {state : State}
    (hrun : (start 0).run limits text = .ok state) : state.LastRead limits text := by
  have hstart : (start 0).LastRead limits [] := trivial
  exact lastRead_of_run rfl hstart hrun

end State

end SearchCriteria.Reader
