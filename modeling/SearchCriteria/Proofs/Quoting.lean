import SearchCriteria.Proofs.Reader.Consistency
import SearchCriteria.Proofs.Reader.History
import SearchCriteria.Proofs.Reader.LastRead
import SearchCriteria.Proofs.Reader.Stop

/-!
# What causes quote

A text that is refused has a first character that is, or it ends too early. Whatever of the text
its cause carries stands directly in front of this place.
-/

namespace SearchCriteria

open Grammar

namespace Reader

variable {limits : Limits} {text before : List Char} {c : Char} {cause : ParseError}

/-- A property before which an expression may begin stands as one. -/
theorem Lead.standsAsProperty {first : Bool} {depth : Nat} {pending : List Pending}
    {property : List Char} (hlead : Lead limits first depth pending before)
    (hproperty : Property first property) : StandsAsProperty before property :=
  ⟨⟨hproperty.nonempty, hproperty.no_separator⟩, hlead.eq_nil_or_ends⟩

/-- A letter behind the first ones of a word is the next one if the word goes on with it. -/
theorem getElem?_of_take_concat {word : List Char} {matched : Nat}
    (hbegins : word.take matched ++ [c] <+: word) : word[matched]? = some c := by
  have hle := hbegins.length_le
  rw [List.length_append, List.length_take, List.length_singleton] at hle
  have hlength : (word.take matched).length = matched := List.length_take_of_le (by omega)
  rw [List.prefix_iff_getElem?.mp hbegins matched (by simp [hlength])]
  simp [List.getElem_append_right, hlength]

/-- The keyword of an operator that is written as a word is one of the keywords. -/
theorem mem_keywords_of_isWord {operator : Operator} (hword : operator.IsWord) :
    operator.keyword ∈ keywords := by
  rcases hword with rfl | rfl | rfl | rfl <;> decide

/-- The keyword of a junction is one of the keywords. -/
theorem junction_mem_keywords (junction : Junction) : junction.keyword ∈ keywords := by
  cases junction <;> decide

/-- Some but not all letters of a keyword are a beginning of it. -/
theorem exists_keyword_of_take {keyword : String} {matched : Nat} (hkeyword : keyword ∈ keywords)
    (hpos : 1 ≤ matched) (hlt : matched < keyword.toList.length) :
    ∃ keyword' ∈ keywords, String.ofList (keyword.toList.take matched) ≠ "" ∧
      String.ofList (keyword.toList.take matched) ≠ keyword' ∧
      (String.ofList (keyword.toList.take matched)).toList <+: keyword'.toList := by
  have hlength : (String.ofList (keyword.toList.take matched)).toList.length = matched := by
    rw [String.toList_ofList, List.length_take]
    omega
  refine ⟨keyword, hkeyword, ?_, ?_, ?_⟩
  · intro hempty
    rw [hempty] at hlength
    exact absurd hlength (by simpa using Nat.ne_of_lt hpos)
  · intro hwhole
    rw [hwhole] at hlength
    omega
  · rw [String.toList_ofList]
    exact List.take_prefix _ _

/-- Letters that begin a word behind a state are quoted with a character behind them if none of
these words begins so. -/
theorem quotes_fragment {place : State} {letters : List Char} {fragment keyword : String}
    (hrun : (State.start 0).run limits before = .ok place)
    (hfragment : fragment.toList = letters ++ [c]) (hc : isSeparator c = false)
    (hkeyword : keyword ∈ keywords) (hmem : keyword ∈ place.words)
    (hletters : letters <+: keyword.toList)
    (hnone : ∀ word ∈ place.words, ¬ letters ++ [c] <+: word.toList) :
    (ParseError.unexpectedOperatorBeginning fragment).Quotes limits text
      (before ++ letters ++ [c]) := by
  refine ⟨before, place, letters, c, ?_, hrun, hfragment, hc,
    ⟨keyword, hkeyword, hmem, hletters⟩, ?_⟩
  · rw [hfragment, List.append_assoc]
  · rwa [hfragment]

/-- A character is quoted alone if no word behind a state begins with it. -/
theorem quotes_letter {place : State} {keyword : String} {firsts : List Char}
    (hrun : (State.start 0).run limits before = .ok place) (hc : isSeparator c = false)
    (hkeyword : keyword ∈ keywords) (hmem : keyword ∈ place.words)
    (hfirsts : ∀ word ∈ place.words, word.toList[0]? ∈ firsts.map some) (hletter : c ∉ firsts) :
    (ParseError.unexpectedOperatorBeginning (String.singleton c)).Quotes limits text
      (before ++ [c]) := by
  have hnone : ∀ word ∈ place.words, ¬ [] ++ [c] <+: word.toList := by
    intro word hword hbegins
    have hfirst := hfirsts word hword
    rw [List.prefix_iff_getElem?.mp hbegins 0 Nat.zero_lt_one] at hfirst
    exact hletter (by simpa using hfirst)
  have hquotes : (ParseError.unexpectedOperatorBeginning (String.singleton c)).Quotes limits text
      (before ++ [] ++ [c]) :=
    quotes_fragment hrun (String.toList_singleton c) hc hkeyword hmem List.nil_prefix hnone
  rwa [List.append_nil] at hquotes

/-- A keyword that breaks off in the middle is quoted as far as it has been read. -/
theorem Spells.quotes_broken {keyword : String} {matched : Nat}
    (hspells : Spells limits text keyword matched) (hkeyword : keyword ∈ keywords)
    (hpos : 1 ≤ matched) (hlt : matched < keyword.toList.length) (htakes : Takes limits text) :
    (brokenKeyword keyword.toList matched).Quotes limits text text := by
  obtain ⟨before, place, -, htext, -⟩ := hspells
  refine ⟨exists_keyword_of_take hkeyword hpos hlt, .inl ⟨htakes, ?_⟩⟩
  rw [String.toList_ofList]
  exact ⟨before, htext.symm⟩

/-- A keyword that a character breaks is quoted as far as it has been read, and with the character
unless that is a separator. -/
theorem Spells.quotes_breaks {keyword : String} {matched : Nat}
    (hspells : Spells limits before keyword matched) (hkeyword : keyword ∈ keywords)
    (hpos : 1 ≤ matched) (hstops : Stops limits text)
    (hbreaks : BreaksKeyword keyword.toList matched c cause) :
    cause.Quotes limits text (before ++ [c]) := by
  obtain ⟨start, place, hrun, rfl, hmem, honly⟩ := hspells
  cases hbreaks with
  | separated hlt hc =>
    refine ⟨exists_keyword_of_take hkeyword hpos hlt, .inr ⟨hstops, c, hc, ?_⟩⟩
    rw [String.toList_ofList, List.append_assoc]
    exact List.suffix_append _ _
  | misspelled hnext hc =>
    have hfragment : ((String.ofList (keyword.toList.take matched)).push c).toList =
        keyword.toList.take matched ++ [c] := by
      rw [String.toList_push, String.toList_ofList]
    refine quotes_fragment hrun hfragment hc hkeyword hmem (List.take_prefix _ _) ?_
    -- A word that went on like this would be the keyword, which goes on with another letter.
    intro word hword hbegins
    obtain rfl := honly word hword ((List.prefix_append _ _).trans hbegins)
    exact hnext (getElem?_of_take_concat hbegins)

/-- Operators begin with one of seven characters. -/
theorem first_of_operator : ∀ word ∈ Operator.all.map Operator.keyword,
    word.toList[0]? ∈ ['=', '!', '<', '>', 'c', 'e', 'd'].map some := by decide

/-- Operators that begin with `d` go on with one of two letters. -/
theorem second_of_operator : ∀ word ∈ Operator.all.map Operator.keyword,
    word.toList[0]? = some 'd' → word.toList[1]? = some 'e' ∨ word.toList[1]? = some 'o' := by
  decide

/-- A character that a clause does not take is quoted with what stands in front of it. -/
theorem Clause.Refuses.quotes {clause : Clause} {scope : Scope} (hrefuses : clause.Refuses c cause)
    (hrun : (State.start 0).run limits before = .ok (.inClause clause scope))
    (hstops : Stops limits text) : cause.Quotes limits text (before ++ [c]) := by
  have hlast := State.lastRead_of_run_start hrun
  cases hrefuses with
  | operator hc hletter =>
    have hcontains : "contains" ∈ Operator.all.map Operator.keyword := by decide
    exact quotes_letter hrun hc (by decide) hcontains first_of_operator hletter
  | notEquals hequal =>
    have hends : ['!'] ++ [c] <:+ before ++ [c] := List.suffix_append_self_iff.mpr hlast.2
    exact ⟨rfl, .inr ⟨hstops, c, hequal, hends⟩⟩
  | symbol hcomplete _ hc =>
    obtain ⟨hsymbol, hends⟩ := hlast
    rw [take_symbol hsymbol hcomplete] at hends
    exact ⟨c, hc, List.suffix_append_self_iff.mpr hends⟩
  | separatedD hc =>
    obtain ⟨start, hstart, rfl⟩ := hlast
    refine ⟨⟨"derivedFrom", by decide, by decide, by decide, by decide⟩, .inr ⟨hstops, c, hc, ?_⟩⟩
    rw [List.append_assoc]
    exact List.suffix_append _ _
  | letterD hc he ho =>
    obtain ⟨start, hstart, rfl⟩ := hlast
    have hfragment : ("d".push c).toList = ['d', c] := by
      rw [String.toList_push]
      rfl
    have hderived : "derivedFrom" ∈ Operator.all.map Operator.keyword := by decide
    refine quotes_fragment hstart hfragment hc (by decide) hderived (by decide) ?_
    intro word hword hbegins
    have hletters := List.prefix_iff_getElem?.mp hbegins
    have hsecond := second_of_operator word hword (hletters 0 Nat.zero_lt_two)
    rw [hletters 1 Nat.one_lt_two] at hsecond
    rcases hsecond with hsecond | hsecond
    · exact he (Option.some.inj hsecond)
    · exact ho (Option.some.inj hsecond)
  | keyword hbreaks =>
    obtain ⟨hword, hpos, -⟩ := (State.consistent_of_run hrun).1
    exact hlast.quotes_breaks (mem_keywords_of_isWord hword) hpos hstops hbreaks
  | unspaced hc =>
    obtain ⟨gap, -, hspaced, hends⟩ := hlast
    rw [hspaced.mp rfl, List.append_nil] at hends
    exact ⟨c, hc, List.suffix_append_self_iff.mpr hends⟩
  | flag => trivial
  | unquoted hc hquote =>
    obtain ⟨gap, hblank, hspaced, hends⟩ := hlast
    have hnonempty : gap ≠ [] := fun hnil => Bool.noConfusion (hspaced.mpr hnil)
    exact ⟨gap, c, ⟨hnonempty, hblank⟩, hc, hquote, List.suffix_append_self_iff.mpr hends⟩
  | @escaped _ _ content _ hc =>
    obtain ⟨start, -, rfl⟩ := hlast
    have hplain : c ≠ '\\' ∧ c ≠ '"' := by
      constructor
      · rintro rfl
        exact absurd hc (by decide)
      · rintro rfl
        exact absurd hc (by decide)
    refine ⟨⟨start ++ '"' :: Text.escape content.toList, ?_⟩, hplain⟩
    simp only [if_true, List.append_assoc, List.cons_append, List.nil_append]
  | text => trivial
  | flagLetter => trivial

/-- A character that is refused behind an expression is quoted. -/
theorem State.Ends.quotes {state : State} {closed : Bool} {operand : Query} {scope : Scope}
    (hends : state.Ends closed operand scope) (hrun : (State.start 0).run limits before = .ok state)
    (hrefuses : State.Refuses limits (.afterOperand operand scope) c cause) :
    cause.Quotes limits text (before ++ [c]) := by
  cases hrefuses with
  | close => trivial
  | junction => trivial
  | noJunction hc hletter =>
    have hwords := hends.words_eq
    have hfirsts : ∀ word ∈ state.words, word.toList[0]? ∈ ['a', 'o'].map some := by
      rw [hwords]
      decide
    have hmem : "and" ∈ state.words := by
      rw [hwords]
      decide
    have hnone : c ∉ ['a', 'o'] := fun hc => hletter (List.mem_cons_of_mem _ hc)
    exact quotes_letter hrun hc (by decide) hmem hfirsts hnone

/-- A character that a state does not take is quoted with what stands in front of it. -/
theorem State.Refuses.quotes {state : State} (hrefuses : State.Refuses limits state c cause)
    (hrun : (State.start 0).run limits before = .ok state) (hstops : Stops limits text) :
    cause.Quotes limits text (before ++ [c]) := by
  have hlast := State.lastRead_of_run_start hrun
  have hconsistent := State.consistent_of_run hrun
  cases hrefuses with
  | clause hclause => exact hclause.quotes hrun hstops
  | ended hclause hrefuses =>
    exact (hconsistent.ends_of_ended hclause).quotes hrun hrefuses
  | noJunction hc hletter => exact (State.Ends.closed _ _).quotes hrun (.noJunction hc hletter)
  | keyword hbreaks =>
    exact Spells.quotes_breaks hlast (junction_mem_keywords _) hconsistent.1.1 hstops hbreaks
  | missingSide =>
    obtain ⟨gap, hgap, hends⟩ := hlast
    exact ⟨gap, hgap, .inr ⟨hstops, List.suffix_append_self_iff.mpr hends⟩⟩
  | _ => trivial

/-- A clause that is not complete at the end of the text is quoted. -/
theorem Clause.quotes_of_finish {clause : Clause} {scope : Scope}
    (hrun : (State.start 0).run limits text = .ok (.inClause clause scope))
    (hfinish : clause.finish = .error cause) : cause.Quotes limits text text := by
  have hlast := State.lastRead_of_run_start hrun
  have htakes : Takes limits text := ⟨_, hrun⟩
  obtain ⟨first, before, rest, hlead, hreads, htext⟩ := State.reads_of_run hrun
  cases clause with
  | inProperty token =>
    obtain rfl := Except.error.inj hfinish
    obtain ⟨hproperty, rfl⟩ := hreads
    exact ⟨before, htext, hlead.standsAsProperty hproperty⟩
  | beforeOperator property =>
    obtain rfl := Except.error.inj hfinish
    obtain ⟨gap, hproperty, hgap, rfl⟩ := hreads
    rw [← List.append_assoc] at htext
    exact ⟨before, gap, htext, hgap, hlead.standsAsProperty hproperty⟩
  | afterSymbol property operator =>
    obtain ⟨hsymbol, hends⟩ := hlast
    rw [finish] at hfinish
    split at hfinish
    case isTrue hoperator =>
      obtain rfl := Except.error.inj hfinish
      rw [hoperator] at hends
      exact ⟨hoperator, .inl ⟨htakes, hends⟩⟩
    case isFalse hoperator =>
      obtain rfl := Except.error.inj hfinish
      rw [take_symbol hsymbol hoperator] at hends
      refine ⟨[], blank_nil, ?_⟩
      rwa [List.append_nil]
  | afterD property =>
    obtain rfl := Except.error.inj hfinish
    obtain ⟨start, -, rfl⟩ := hlast
    exact ⟨⟨"derivedFrom", by decide, by decide, by decide, by decide⟩,
      .inl ⟨htakes, List.suffix_append _ _⟩⟩
  | inKeyword property operator matched =>
    obtain ⟨hword, hpos, hle⟩ := (State.consistent_of_run hrun).1
    rw [finish] at hfinish
    split at hfinish
    case isTrue hmatched =>
      obtain rfl := Except.error.inj hfinish
      obtain ⟨start, place, -, rfl, -⟩ := hlast
      refine ⟨[], blank_nil, ?_⟩
      rw [hmatched, ← String.length_toList, List.take_length, List.append_nil]
      exact List.suffix_append _ _
    case isFalse hmatched =>
      obtain rfl := Except.error.inj hfinish
      rw [← String.length_toList] at hmatched
      exact hlast.quotes_broken (mem_keywords_of_isWord hword) hpos
        (Nat.lt_of_le_of_ne hle hmatched) htakes
  | beforeOperand property operator spaced =>
    obtain rfl := Except.error.inj hfinish
    obtain ⟨gap, hblank, -, hends⟩ := hlast
    exact ⟨gap, hblank, hends⟩
  | inText property operator content escaped =>
    obtain rfl := Except.error.inj hfinish
    obtain ⟨start, hstart, htext⟩ := hlast
    cases operator with
    | existence => exact absurd rfl (State.consistent_of_run hrun).1
    | compare comparison =>
      refine ⟨start, _, property, comparison, scope, htext, ?_, hstart⟩
      cases escaped with
      | false => exact .inl rfl
      | true => exact .inr rfl
  | inFlag property value matched =>
    rw [finish] at hfinish
    split at hfinish
    case isTrue => cases hfinish
    case isFalse =>
      obtain rfl := Except.error.inj hfinish
      trivial

/-- Parentheses that are still open are told by their number alone. -/
theorem Scope.quotes_of_finish {scope : Scope} {operand : Query} {part : List Char}
    (hfinish : scope.finish operand = .error cause) : cause.Quotes limits text part := by
  rw [finish] at hfinish
  split at hfinish
  case isTrue => cases hfinish
  case isFalse =>
    obtain rfl := Except.error.inj hfinish
    trivial

/-- A state in which no text may end is quoted. -/
theorem State.quotes_of_finish {state : State}
    (hrun : (State.start 0).run limits text = .ok state)
    (hfinish : state.finish = .error cause) : cause.Quotes limits text text := by
  have hlast := State.lastRead_of_run_start hrun
  have htakes : Takes limits text := ⟨_, hrun⟩
  cases state with
  | start depth =>
    obtain rfl := Except.error.inj hfinish
    trivial
  | wildcard => cases hfinish
  | inClause clause scope =>
    rw [finish] at hfinish
    cases hclause : clause.finish with
    | error other =>
      rw [hclause] at hfinish
      obtain rfl : other = cause := Except.error.inj hfinish
      exact Clause.quotes_of_finish hrun hclause
    | ok operand =>
      rw [hclause] at hfinish
      exact Scope.quotes_of_finish hfinish
  | afterOperand operand scope => exact Scope.quotes_of_finish hfinish
  | inJunction junction matched scope =>
    obtain ⟨⟨hpos, hle⟩, -⟩ := State.consistent_of_run hrun
    rw [finish] at hfinish
    split at hfinish
    case isTrue hlt =>
      obtain rfl := Except.error.inj hfinish
      rw [← String.length_toList] at hlt
      exact Spells.quotes_broken hlast (junction_mem_keywords junction) hpos hlt htakes
    case isFalse hge =>
      obtain rfl := Except.error.inj hfinish
      obtain ⟨start, place, -, rfl, -⟩ := hlast
      rw [← String.length_toList] at hge
      refine ⟨[], by simp, .inl ⟨htakes, ?_⟩⟩
      rw [List.take_of_length_le (Nat.le_of_not_lt hge), List.append_nil]
      exact List.suffix_append _ _
  | afterJunction junction scope =>
    obtain rfl := Except.error.inj hfinish
    obtain ⟨gap, hgap, hends⟩ := hlast
    exact ⟨gap, hgap, .inl ⟨htakes, hends⟩⟩

end Reader

namespace Query

open Reader

/-- A cause quotes the text from the place where its reading stops. -/
theorem parse_eq_error_quotes {limits : Limits} {text : String} {cause : ParseError}
    (hparse : parse limits text = .error cause) :
    (∃ part, StopsBehind limits text.toList part) ∧
      ∀ part, StopsBehind limits text.toList part → cause.Quotes limits text.toList part := by
  rw [parse_eq] at hparse
  cases hrun : (State.start 0).run limits text.toList with
  | error other =>
    rw [hrun] at hparse
    obtain rfl : other = cause := Except.error.inj hparse
    have hstops : Stops limits text.toList := ⟨other, hrun⟩
    obtain ⟨before, c, behind, state, htext, hbefore, hstep⟩ := State.run_eq_error_iff.mp hrun
    have hbehind : StopsBehind limits text.toList (before ++ [c]) :=
      htext ▸ stopsBehind_of_step hbefore hstep behind
    refine ⟨⟨_, hbehind⟩, ?_⟩
    intro part hpart
    rw [hpart.unique hbehind]
    exact (State.refuses_of_step hstep).quotes hbefore hstops
  | ok state =>
    rw [hrun] at hparse
    have hwhole : StopsBehind limits text.toList text.toList := Takes.stopsBehind ⟨state, hrun⟩
    refine ⟨⟨_, hwhole⟩, ?_⟩
    intro part hpart
    rw [hpart.unique hwhole]
    exact State.quotes_of_finish hrun hparse

/-- The fragment that begins no operator is the last that has been read. -/
theorem parse_eq_error_quotes_fragment :
    parse ⟨1, 2⟩ "(a exists true anx y" = .error (.unexpectedOperatorBeginning "anx") ∧
      StopsBehind ⟨1, 2⟩ "(a exists true anx y".toList "(a exists true anx".toList ∧
      (ParseError.unexpectedOperatorBeginning "anx").Quotes ⟨1, 2⟩ "(a exists true anx y".toList
        "(a exists true anx".toList := by
  have hparse : parse ⟨1, 2⟩ "(a exists true anx y" =
      .error (.unexpectedOperatorBeginning "anx") := by rfl
  have hstops : StopsBehind ⟨1, 2⟩ ("(a exists true an".toList ++ 'x' :: " y".toList)
      ("(a exists true an".toList ++ ['x']) := stopsBehind_of_step rfl rfl _
  exact ⟨hparse, hstops, (parse_eq_error_quotes hparse).2 _ hstops⟩

end Query

end SearchCriteria
