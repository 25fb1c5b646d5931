import SearchCriteria.Proofs.Acceptance
import SearchCriteria.Proofs.Grammar.Printed

/-!
# Reading printed texts

What a text tells is printable, whatever the text, and a printable query is told by its
printed text. Hence printing a query that has been read never leads out of the limits,
and a query that is not printable never comes back from its printed text.
-/

namespace SearchCriteria.Query

open Grammar

variable {limits : Limits}

/-- What any text tells within the limits is printable within them. -/
theorem printable_of_parse {text : String} {query : Query}
    (hparse : parse limits text = .ok query) : query.Printable limits := by
  rcases parse_eq_ok_iff.mp hparse with ⟨hquery, -⟩ |
    ⟨outline, ⟨hfits, -⟩, rfl, hdepth, hterms⟩
  · exact .inl hquery
  · have hgroups := hfits.groupDepth_le
    rw [Level.encloses_disjunction, Bool.toNat_false] at hgroups
    exact .inr ⟨hfits.readable, hterms, by omega⟩

/-- A query that is printable within the limits is read back from its printed text. -/
theorem Printable.parse_print {query : Query} (hprintable : query.Printable limits) :
    parse limits query.print = .ok query := by
  rcases hprintable with rfl | ⟨hreadable, hterms, hgroups⟩
  · exact parse_of_wildcard ⟨[], [], blank_nil, blank_nil, rfl⟩
  · obtain ⟨outline, hspans, hquery, hdepth, -⟩ := hreadable.exists_spans
    rw [← hdepth] at hgroups
    rw [← hquery] at hterms
    rw [parse_of_spans hspans hgroups hterms, hquery]

/-- Printing a query that a text tells gives a text that tells the query again, within the
same limits. -/
theorem parse_print_of_parse {text : String} {query : Query}
    (hparse : parse limits text = .ok query) : parse limits query.print = .ok query := by
  have hprintable := printable_of_parse hparse
  exact hprintable.parse_print

/-- A text with more parentheses than the printed one and with an escaped backslash. -/
theorem parse_print_of_parse_group :
    let query : Query := .joined .or (.relational "a" (.compare .equals "\\"))
      (.joined .and (.relational "b" (.existence true))
        (.relational "*c" (.compare .notEquals "")))
    parse ⟨2, 3⟩ "((a = \"\\\\\") or (b exists true and *c != \"\"))" = .ok query ∧
      query.print = "a = \"\\\\\" or b exists true and *c != \"\"" ∧
      parse ⟨2, 3⟩ query.print = .ok query := by
  intro query
  have hparse : parse ⟨2, 3⟩ "((a = \"\\\\\") or (b exists true and *c != \"\"))" = .ok query := by
    rfl
  exact ⟨hparse, by decide, parse_print_of_parse hparse⟩

/-- Exactly the printable queries are read back from their printed texts. -/
theorem parse_print_iff_printable (limits : Limits) (query : Query) :
    parse limits query.print = .ok query ↔ query.Printable limits := by
  constructor
  · intro hparse
    exact printable_of_parse hparse
  · intro hprintable
    exact hprintable.parse_print

end SearchCriteria.Query
