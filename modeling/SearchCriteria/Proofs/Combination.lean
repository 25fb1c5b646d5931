import SearchCriteria.Proofs.Acceptance

/-!
# Combining texts

An accepted text keeps its query when it is put in parentheses, and a junction between two
such groups joins their queries, whatever junctions the texts hold. The groups take one
parenthesis more than their texts, and the expressions of both are counted together.
-/

namespace SearchCriteria

open Grammar

namespace Grammar

/-- A property that may stand first may stand anywhere. -/
theorem Property.anywhere {text : List Char} (hproperty : Property true text) (first : Bool) :
    Property first text :=
  { hproperty with no_wildcard := fun _ => hproperty.no_wildcard rfl }

/-- A phrase that may stand first may stand anywhere. -/
theorem Outline.Fits.anywhere {outline : Outline} {level : Level} (hfits : outline.Fits level true)
    (first : Bool) : outline.Fits level first := by
  induction outline generalizing level with
  | expression property gap relation gap' =>
    obtain ⟨hproperty, hgaps⟩ := hfits
    exact ⟨hproperty.anywhere first, hgaps⟩
  | group blank inner blank' ih =>
    obtain ⟨hblank, hinner, hblank'⟩ := hfits
    exact ⟨hblank, ih hinner, hblank'⟩
  | joined junction left blank gap right ihleft ihright =>
    obtain ⟨hadmits, hleft, hsides⟩ := hfits
    exact ⟨hadmits, ihleft hleft, hsides⟩

/-- The text between parentheses is a term, if an outline spans the text. -/
theorem Outline.Spans.exists_group {outline : Outline} {text : List Char}
    (hspans : outline.Spans text) (first : Bool) :
    ∃ group : Outline, group.Fits .term first ∧ group.text = '(' :: (text ++ [')']) ∧
      group.closed = true ∧ group.query = outline.query ∧ group.depth = outline.depth + 1 := by
  obtain ⟨hfits, blank, blank', hblank, hblank', rfl⟩ := hspans
  exact ⟨.group blank outline blank', ⟨hblank, hfits.anywhere first, hblank'⟩, rfl, rfl, rfl, rfl⟩

end Grammar

namespace Query

variable {limits wider : Limits}

/-- A text that tells a query other than the wildcard is spanned by an outline of the query
within the limits. -/
theorem exists_spans_of_parse {text : String} {query : Query}
    (hparse : parse limits text = .ok query) (hquery : query ≠ .allResults) :
    ∃ outline : Outline, outline.Spans text.toList ∧ outline.query = query ∧
      outline.depth ≤ limits.maxNestingDepth := by
  rcases parse_eq_ok_iff.mp hparse with ⟨hwildcard, -⟩ | ⟨outline, hspans, htold, hdepth, -⟩
  · exact absurd hwildcard hquery
  · exact ⟨outline, hspans, htold, hdepth⟩

/-- Two texts in parentheses with a junction between them tell the two queries joined, within
all limits that leave room for one parenthesis more and for the expressions of both. -/
theorem parse_joined_groups {first second : String} {left right : Query} (junction : Junction)
    (hfirst : parse limits first = .ok left) (hsecond : parse limits second = .ok right)
    (hleft : left ≠ .allResults) (hright : right ≠ .allResults)
    (hdepth : limits.maxNestingDepth + 1 ≤ wider.maxNestingDepth)
    (hterms : left.leaves + right.leaves ≤ wider.maxTerms) :
    parse wider ("(" ++ first ++ ") " ++ junction.keyword ++ " (" ++ second ++ ")") =
      .ok (.joined junction left right) := by
  obtain ⟨p, hp, rfl, hpdepth⟩ := exists_spans_of_parse hfirst hleft
  obtain ⟨q, hq, rfl, hqdepth⟩ := exists_spans_of_parse hsecond hright
  obtain ⟨before, hbefore, hbeforeText, hclosed, hbeforeQuery, hbeforeDepth⟩ :=
    hp.exists_group true
  obtain ⟨behind, hbehind, hbehindText, -, hbehindQuery, hbehindDepth⟩ := hq.exists_group false
  have hgap : Gap [' '] := gap_singleton rfl
  let whole : Outline := .joined junction before [' '] [' '] behind
  have hfits : whole.Fits .disjunction true :=
    ⟨rfl, hbefore.of_term _, hgap.2, fun _ => hgap.1, hgap, hbehind.of_term _⟩
  have htext : whole.text =
      ("(" ++ first ++ ") " ++ junction.keyword ++ " (" ++ second ++ ")").toList := by
    simp [whole, Outline.text, hbeforeText, hbehindText]
  have hquery : whole.query = .joined junction p.query q.query := by
    simp only [whole, Outline.query, hbeforeQuery, hbehindQuery]
  have hspans : whole.Spans
      ("(" ++ first ++ ") " ++ junction.keyword ++ " (" ++ second ++ ")").toList :=
    ⟨hfits, [], [], blank_nil, blank_nil, by rw [htext]; simp⟩
  have hroom : whole.depth ≤ wider.maxNestingDepth := by
    simp only [whole, Outline.depth, hbeforeDepth, hbehindDepth]
    omega
  have hcount : whole.query.leaves ≤ max 1 wider.maxTerms := by
    rw [hquery, leaves]
    omega
  rw [parse_of_spans hspans hroom hcount, hquery]

/-- A disjunction before `and`, and behind it a text that begins with a group. -/
theorem parse_joined_groups_disjunction :
    let left : Query := .joined .or (.relational "a" (.compare .equals "1"))
      (.relational "b" (.existence true))
    let right : Query := .joined .and (.relational "c" (.compare .notEquals ")"))
      (.relational "d" (.existence false))
    parse ⟨1, 2⟩ "a = \"1\" or b exists true" = .ok left ∧
      parse ⟨1, 2⟩ " (c != \")\")and d exists false" = .ok right ∧
      parse ⟨2, 4⟩ "(a = \"1\" or b exists true) and ( (c != \")\")and d exists false)" =
        .ok (.joined .and left right) := by
  intro left right
  have hfirst : parse ⟨1, 2⟩ "a = \"1\" or b exists true" = .ok left := by rfl
  have hsecond : parse ⟨1, 2⟩ " (c != \")\")and d exists false" = .ok right := by rfl
  have htext : "(" ++ "a = \"1\" or b exists true" ++ ") " ++ Junction.and.keyword ++ " (" ++
      " (c != \")\")and d exists false" ++ ")" =
        "(a = \"1\" or b exists true) and ( (c != \")\")and d exists false)" := by decide
  refine ⟨hfirst, hsecond, ?_⟩
  rw [← htext]
  exact parse_joined_groups .and hfirst hsecond (by simp [left]) (by simp [right]) (by decide)
    (by decide)

end Query

end SearchCriteria
