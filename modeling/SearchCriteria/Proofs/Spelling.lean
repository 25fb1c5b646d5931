import SearchCriteria.Proofs.Reader.Trace
import SearchCriteria.Proofs.RoundTrip

/-!
# The spelling with the fewest parentheses

A query has many texts, which differ in separators and in parentheses that could be left out.
Of all of them the printed one groups with the fewest parentheses, and a text that groups with
no more of them differs from it in nothing but the separators outside of quotes.
-/

namespace SearchCriteria

open Grammar Reader

namespace Reader

variable {limits : Limits} {text : List Char} {last : State}

/-- A text that is the wildcard groups nothing, and nothing else is left of it. -/
theorem groupCount_of_wildcard (hwildcard : Wildcard text)
    (hrun : (State.start 0).run limits text = .ok last) :
    groupCount limits text = 0 ∧ condensed limits text = ['*'] := by
  obtain ⟨blank, blank', hblank, hblank', rfl⟩ := hwildcard
  have hplain : ∀ c ∈ blank ++ '*' :: blank', c ≠ '(' ∧ c ≠ '"' :=
    List.forall_mem_append.mpr
      ⟨hblank.plain, List.forall_mem_cons.mpr ⟨by decide, hblank'.plain⟩⟩
  have hstar : isSeparator '*' = false := by decide
  have htakes := State.takes_plain rfl hplain hrun
  have hleft : (blank ++ '*' :: blank').filter (fun c => !isSeparator c) = ['*'] := by
    rw [List.filter_append, hblank.filter_eq_nil, List.filter_cons_of_pos (by simp [hstar]),
      hblank'.filter_eq_nil, List.nil_append]
  rw [hleft] at htakes
  exact ⟨htakes.groupsIn_eq, htakes.condensedIn_eq⟩

/-- A text that is read groups like the outline that spans it, and is condensed like it. -/
theorem groupCount_of_spans {outline : Outline} (hspans : outline.Spans text)
    (hrun : (State.start 0).run limits text = .ok last) :
    groupCount limits text = outline.groups ∧ condensed limits text = outline.condensed := by
  obtain ⟨hfits, blank, blank', hblank, hblank', rfl⟩ := hspans
  have hawaits := State.Awaits.start 0
  have hbefore : (State.start 0).run limits blank = .ok (.start 0) := hawaits.run_blank hblank
  rw [List.append_assoc, State.run_append_of_run hbefore] at hrun
  obtain ⟨between, hphrase, hafter⟩ := State.exists_of_run_append hrun
  obtain ⟨⟨operand, scope, hends⟩, htakes⟩ := hawaits.takes_outline hfits hphrase
  have hwhole := (State.takes_blank rfl hblank hbefore).append
    (htakes.append (State.takes_blank hends.inQuotes_eq_false hblank' hafter))
  rw [← List.append_assoc, Nat.add_zero, Nat.zero_add, List.append_nil, List.nil_append] at hwhole
  exact ⟨hwhole.groupsIn_eq, hwhole.condensedIn_eq⟩

end Reader

namespace Query

variable {limits : Limits}

/-- No text of a query groups with fewer parentheses than the printed one, and a text that
groups with as many is the printed text but for separators outside of quotes. -/
theorem groupCount_le_of_parse {text : String} {query : Query}
    (hparse : parse limits text = .ok query) :
    Reader.groupCount limits query.print.toList = query.groupCount ∧
      query.groupCount ≤ Reader.groupCount limits text.toList ∧
      (Reader.groupCount limits text.toList = query.groupCount →
        Reader.condensed limits text.toList = Reader.condensed limits query.print.toList) := by
  obtain ⟨last, hrun, -⟩ := exists_run_of_parse hparse
  obtain ⟨last', hrun', -⟩ := exists_run_of_parse (printable_of_parse hparse).parse_print
  rcases parse_eq_ok_iff.mp hparse with ⟨rfl, hwildcard⟩ | ⟨outline, hspans, rfl, -, -⟩
  · have hprinted : Wildcard (print .allResults).toList := ⟨[], [], blank_nil, blank_nil, rfl⟩
    obtain ⟨-, hcondensed⟩ := groupCount_of_wildcard hwildcard hrun
    obtain ⟨hgroups, hcondensed'⟩ := groupCount_of_wildcard hprinted hrun'
    exact ⟨hgroups, Nat.zero_le _, fun _ => hcondensed.trans hcondensed'.symm⟩
  · obtain ⟨printed, hprinted, hquery, -, hleast⟩ := hspans.1.readable.exists_spans
    obtain ⟨hgroups, hcondensed⟩ := groupCount_of_spans hspans hrun
    obtain ⟨hgroups', hcondensed'⟩ := groupCount_of_spans hprinted hrun'
    refine ⟨hgroups'.trans hleast, ?_, fun heq => ?_⟩
    · rw [hgroups]
      exact hspans.groupCount_le.1
    · rw [hgroups] at heq
      rw [← hquery] at hleast
      rw [hcondensed, hcondensed', hspans.groupCount_le.2 heq, hprinted.groupCount_le.2 hleast,
        hquery]

/-- A text with other separators than the printed one has, with parentheses in a property and in
quotes, and with no group too many. -/
theorem groupCount_le_of_parse_least :
    let query : Query := .joined .and
      (.joined .or (.relational "a(" (.compare .equals "( 1")) (.relational "b" (.existence true)))
      (.relational "c(" (.compare .notEquals "\\"))
    parse ⟨1, 3⟩ "( a( = \"( 1\"or  b exists true )and\tc( != \"\\\\\" " = .ok query ∧
      query.print = "(a( = \"( 1\" or b exists true) and c( != \"\\\\\"" ∧
      Reader.groupCount ⟨1, 3⟩ "( a( = \"( 1\"or  b exists true )and\tc( != \"\\\\\" ".toList =
        query.groupCount ∧
      Reader.condensed ⟨1, 3⟩ "( a( = \"( 1\"or  b exists true )and\tc( != \"\\\\\" ".toList =
        Reader.condensed ⟨1, 3⟩ query.print.toList := by
  intro query
  have hparse : parse ⟨1, 3⟩ "( a( = \"( 1\"or  b exists true )and\tc( != \"\\\\\" " =
      .ok query := by rfl
  have hgroups : Reader.groupCount ⟨1, 3⟩
      "( a( = \"( 1\"or  b exists true )and\tc( != \"\\\\\" ".toList = query.groupCount := by rfl
  obtain ⟨-, -, hcondensed⟩ := groupCount_le_of_parse hparse
  exact ⟨hparse, by decide, hgroups, hcondensed hgroups⟩

end Query

end SearchCriteria
