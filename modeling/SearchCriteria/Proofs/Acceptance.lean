import SearchCriteria.Proofs.Reader.History
import SearchCriteria.Proofs.Reader.Phrase
import SearchCriteria.Proofs.Reader.Terms

/-!
# Accepted texts

A text is accepted exactly if it is the wildcard or a phrase of the grammar whose groups
and expressions are within the limits, and the query is the one that the grammar tells.
A text that is too short to reach the widest limits is accepted by the grammar alone.
-/

namespace SearchCriteria

open Grammar Reader

/-- The limits that hold where no narrower ones can be written down. -/
def Limits.widest : Limits := ⟨2 ^ 64 - 1, 2 ^ 64 - 1⟩

namespace Query

variable {limits : Limits}

/-- The wildcard alone is accepted within all limits. -/
theorem parse_of_wildcard {text : String} (hwildcard : Wildcard text.toList) :
    parse limits text = .ok .allResults := by
  obtain ⟨blank, blank', hblank, hblank', htext⟩ := hwildcard
  have hbefore : (State.start 0).run limits blank = .ok (.start 0) :=
    (State.Awaits.start 0).run_blank hblank
  have hstar : (State.start 0).step limits '*' = .ok .wildcard := rfl
  have hafter : State.wildcard.run limits blank' = .ok .wildcard := by
    apply State.run_blank hblank'
    intro c hc
    rw [State.step, if_pos hc]
  rw [parse_eq, htext, State.run_append_of_run hbefore, State.run_cons_of_step hstar, hafter]
  rfl

/-- A text that an outline spans is accepted if there is room for the outline. -/
theorem parse_of_spans {text : String} {outline : Outline} (hspans : outline.Spans text.toList)
    (hdepth : outline.depth ≤ limits.maxNestingDepth)
    (hterms : outline.query.leaves ≤ max 1 limits.maxTerms) :
    parse limits text = .ok outline.query := by
  obtain ⟨hfits, blank, blank', hblank, hblank', htext⟩ := hspans
  have hawaits := State.Awaits.start 0
  have hbefore : (State.start 0).run limits blank = .ok (.start 0) := hawaits.run_blank hblank
  have hroom : 0 + outline.depth ≤ limits.maxNestingDepth := by omega
  have hroom' : 0 + outline.query.leaves ≤ max 1 limits.maxTerms := by omega
  obtain ⟨last, operand, chain, hrun, hends, -, hreduce⟩ :=
    hawaits.run_outline hfits (Chain.below_nil _) hroom hroom'
  obtain ⟨next, hafter, hnext⟩ := hends.run_blank limits hblank'
  have hcomplete : chain.complete operand = outline.query := by
    rw [Chain.complete, hreduce 0 (Nat.zero_le _)]
    rfl
  have hrunAll : (State.start 0).run limits text.toList = .ok next := by
    rw [htext, List.append_assoc, State.run_append_of_run hbefore, State.run_append_of_run hrun,
      hafter]
  rw [parse_eq, hrunAll, ← hcomplete]
  exact hnext.finish

/-- Acceptance within limits, said by the grammar. -/
theorem parse_eq_ok_iff {text : String} {query : Query} :
    parse limits text = .ok query ↔
      (query = .allResults ∧ Wildcard text.toList) ∨
        ∃ outline : Outline, outline.Spans text.toList ∧ outline.query = query ∧
          outline.depth ≤ limits.maxNestingDepth ∧ query.leaves ≤ max 1 limits.maxTerms := by
  constructor
  · intro hparse
    obtain ⟨state, hrun, hfinish⟩ := exists_run_of_parse hparse
    have hreads := State.reads_of_run hrun
    have hterms := State.leaves_le_of_run hrun hfinish
    rcases hreads.finish hfinish with hwildcard | ⟨outline, hspans, hquery, hdepth⟩
    · exact .inl hwildcard
    · exact .inr ⟨outline, hspans, hquery, hdepth, hterms⟩
  · rintro (⟨rfl, hwildcard⟩ | ⟨outline, hspans, rfl, hdepth, hterms⟩)
    · exact parse_of_wildcard hwildcard
    · exact parse_of_spans hspans hdepth hterms

/-- Within the widest limits a text that is short enough is accepted exactly if the grammar
tells a query of it, which is then the result, and all other texts are refused. -/
theorem parse_widest_iff_tells {text : String} (hlength : text.length < 2 ^ 62) :
    (∀ query, parse .widest text = .ok query ↔ Tells text.toList query) ∧
      ((∀ query, ¬ Tells text.toList query) → ∃ cause, parse .widest text = .error cause) := by
  have htells : ∀ query, parse .widest text = .ok query ↔ Tells text.toList query := by
    intro query
    rw [parse_eq_ok_iff, tells_iff]
    constructor
    · rintro (hwildcard | ⟨outline, hspans, hquery, -⟩)
      · exact .inl hwildcard
      · exact .inr ⟨outline, hspans, hquery⟩
    · rintro (hwildcard | ⟨outline, hspans, rfl⟩)
      · exact .inl hwildcard
      · have hdepth := hspans.depth_le_length
        have hleaves := hspans.leaves_le_length
        rw [String.length_toList] at hdepth hleaves
        refine .inr ⟨outline, hspans, rfl, ?_, ?_⟩
        · simp only [Limits.widest]
          omega
        · simp only [Limits.widest]
          omega
  refine ⟨htells, fun hnone => ?_⟩
  cases hparse : parse .widest text with
  | error cause => exact ⟨cause, rfl⟩
  | ok query => exact absurd ((htells query).mp hparse) (hnone query)

/-- A text with a group, an escaped quote and a wildcard that begins a later property. -/
theorem parse_widest_iff_tells_group :
    "(a = \"1\" or b exists true)and *c < \"\\\"2\"".length < 2 ^ 62 ∧
      Tells "(a = \"1\" or b exists true)and *c < \"\\\"2\"".toList
        (.joined .and
          (.joined .or (.relational "a" (.compare .equals "1"))
            (.relational "b" (.existence true)))
          (.relational "*c" (.compare .lessThan "\"2"))) := by
  have hlength : "(a = \"1\" or b exists true)and *c < \"\\\"2\"".length < 2 ^ 62 := by decide
  refine ⟨hlength, ((parse_widest_iff_tells hlength).1 _).mp ?_⟩
  rfl

end Query

end SearchCriteria
