import SearchCriteria.Proofs.Grammar.Outline
import SearchCriteria.Proofs.Grammar.Word
import SearchCriteria.Query.Printable

/-!
# Outlines of printed texts

Printing writes parentheses around a side exactly where the level of the side does not
admit its junction. So a printed text has an outline with as many parentheses as printing
needs, and every other outline of the query has at least as many. One that has no more
differs from the printed text in nothing but separators.
-/

namespace SearchCriteria

namespace Grammar

/-- Whether a query can stand at the level in parentheses only. -/
def Level.encloses (level : Level) (query : Query) : Bool :=
  match query.junction? with
  | none => false
  | some junction => !level.admits junction

@[simp] theorem Level.encloses_relational (level : Level) (property : String)
    (relation : Relation) : level.encloses (.relational property relation) = false := rfl

@[simp] theorem Level.encloses_joined (level : Level) (junction : Junction)
    (left right : Query) :
    level.encloses (.joined junction left right) = !level.admits junction := rfl

/-- A whole text needs no parentheses around it. -/
@[simp] theorem Level.encloses_disjunction (query : Query) :
    Level.disjunction.encloses query = false := by
  cases query <;> rfl

end Grammar

open Grammar

/-- Printing groups the left side of a junction by the level of left sides. -/
theorem Junction.groups_left (junction : Junction) (side : Query) :
    junction.groups false side = (Level.ofJunction junction).encloses side := by
  unfold groups Level.encloses
  cases side.junction? with
  | none => rfl
  | some inner => cases inner <;> cases junction <;> rfl

/-- Printing groups the right side of a junction by the level of right sides. -/
theorem Junction.groups_right (junction : Junction) (side : Query) :
    junction.groups true side = (Level.rightOf junction).encloses side := by
  unfold groups Level.encloses
  cases side.junction? with
  | none => rfl
  | some inner => cases inner <;> cases junction <;> rfl

namespace Query

@[simp] theorem enclose_false (text : String) : enclose false text = text := rfl

/-- The printed text of a query without the separators that stand outside of quotes. -/
def condensed : Query → String
  | allResults => "*"
  | relational property relation =>
    property ++ relation.operator.keyword ++ relation.operand.print
  | joined junction left right =>
    enclose (junction.groups false left) left.condensed ++ junction.keyword ++
      enclose (junction.groups true right) right.condensed

end Query

namespace Grammar.Outline

/-- The query of a phrase has the properties that its text has, so it can be read where
the phrase can. -/
theorem Fits.readable {outline : Outline} {level : Level} {first : Bool}
    (hfits : outline.Fits level first) : outline.query.Readable first := by
  induction outline generalizing level first with
  | expression property gap relation gap' => exact hfits.1
  | group blank inner blank' ih => exact ih hfits.2.1
  | joined junction left blank gap right ihleft ihright =>
    obtain ⟨-, hleft, -, -, -, hright⟩ := hfits
    exact ⟨ihleft hleft, ihright hright⟩

/-- However a query is spelled at a level, it takes the parentheses that printing writes
there, the ones around the whole of it included. -/
theorem Fits.groupDepth_le {outline : Outline} {level : Level} {first : Bool}
    (hfits : outline.Fits level first) :
    (level.encloses outline.query).toNat + outline.query.groupDepth ≤ outline.depth := by
  induction outline generalizing level first with
  | expression property gap relation gap' => exact Nat.le_refl _
  | group blank inner blank' ih =>
    have hinner := ih hfits.2.1
    have hone : (level.encloses inner.query).toNat ≤ 1 := Bool.toNat_le _
    simp only [Level.encloses_disjunction, Bool.toNat_false] at hinner
    simp only [query, depth]
    omega
  | joined junction left blank gap right ihleft ihright =>
    obtain ⟨hadmits, hleft, -, -, -, hright⟩ := hfits
    have hleft' := ihleft hleft
    have hright' := ihright hright
    rw [← Junction.groups_left] at hleft'
    rw [← Junction.groups_right] at hright'
    simp only [query, depth, Query.groupDepth, Level.encloses_joined, hadmits, Bool.not_true,
      Bool.toNat_false]
    omega

/-- However a query is spelled at a level, it takes as many pairs of parentheses as printing
writes there, the ones around the whole of it included. -/
theorem Fits.groupCount_le {outline : Outline} {level : Level} {first : Bool}
    (hfits : outline.Fits level first) :
    (level.encloses outline.query).toNat + outline.query.groupCount ≤ outline.groups := by
  induction outline generalizing level first with
  | expression property gap relation gap' => exact Nat.le_refl _
  | group blank inner blank' ih =>
    have hinner := ih hfits.2.1
    have hone : (level.encloses inner.query).toNat ≤ 1 := Bool.toNat_le _
    simp only [Level.encloses_disjunction, Bool.toNat_false] at hinner
    simp only [query, groups]
    omega
  | joined junction left blank gap right ihleft ihright =>
    obtain ⟨hadmits, hleft, -, -, -, hright⟩ := hfits
    have hleft' := ihleft hleft
    have hright' := ihright hright
    rw [← Junction.groups_left] at hleft'
    rw [← Junction.groups_right] at hright'
    simp only [query, groups, Query.groupCount, Level.encloses_joined, hadmits, Bool.not_true,
      Bool.toNat_false]
    omega

/-- Among the spellings of a query at a level, those with no more parentheses than printing
writes there are the same but for separators. -/
theorem Fits.condensed_eq {outline : Outline} {level : Level} {first : Bool}
    (hfits : outline.Fits level first)
    (hgroups : outline.groups =
      (level.encloses outline.query).toNat + outline.query.groupCount) :
    outline.condensed =
      (Query.enclose (level.encloses outline.query) outline.query.condensed).toList := by
  induction outline generalizing level first with
  | expression property gap relation gap' =>
    simp [condensed, query, Query.condensed, Query.enclose]
  | group blank inner blank' ih =>
    have hleast := hfits.2.1.groupCount_le
    simp only [Level.encloses_disjunction, Bool.toNat_false, Nat.zero_add] at hleast
    simp only [query, groups] at hgroups ⊢
    -- The pair around the phrase is one that printing writes, and none is to spare inside.
    cases hencloses : level.encloses inner.query with
    | false =>
      rw [hencloses, Bool.toNat_false] at hgroups
      omega
    | true =>
      rw [hencloses, Bool.toNat_true] at hgroups
      have hgroups' : inner.groups =
          (Level.disjunction.encloses inner.query).toNat + inner.query.groupCount := by
        rw [Level.encloses_disjunction, Bool.toNat_false]
        omega
      have hinner := ih hfits.2.1 hgroups'
      rw [condensed, hinner]
      simp [Query.enclose]
  | joined junction left blank gap right ihleft ihright =>
    obtain ⟨hadmits, hleft, -, -, -, hright⟩ := hfits
    have hleftLeast := hleft.groupCount_le
    have hrightLeast := hright.groupCount_le
    simp only [query, groups, Query.groupCount, Level.encloses_joined, hadmits, Bool.not_true,
      Bool.toNat_false, Junction.groups_left, Junction.groups_right] at hgroups
    have hleft' := ihleft hleft (by omega)
    have hright' := ihright hright (by omega)
    rw [← Junction.groups_left] at hleft'
    rw [← Junction.groups_right] at hright'
    simp only [condensed, query, Query.condensed, Level.encloses_joined, hadmits, hleft', hright',
      Bool.not_true, Query.enclose_false, String.toList_append]

/-- A whole text has at least the parentheses that printing writes, and one with no more of them
is the printed text but for separators. -/
theorem Spans.groupCount_le {outline : Outline} {text : List Char} (hspans : outline.Spans text) :
    outline.query.groupCount ≤ outline.groups ∧
      (outline.groups = outline.query.groupCount →
        outline.condensed = outline.query.condensed.toList) := by
  have hleast := hspans.1.groupCount_le
  have hcondensed := hspans.1.condensed_eq
  rw [Level.encloses_disjunction, Bool.toNat_false, Nat.zero_add] at hleast hcondensed
  exact ⟨hleast, hcondensed⟩

end Grammar.Outline

namespace Query

/-- A readable query is printed as a phrase of the level in whose place it is printed, with
the parentheses that it needs there. -/
theorem Readable.exists_outline {query : Query} {first : Bool} (hreadable : query.Readable first)
    (level : Level) :
    ∃ outline : Outline, outline.Fits level first ∧
      outline.text = (enclose (level.encloses query) query.print).toList ∧
      outline.query = query ∧
      outline.depth = (level.encloses query).toNat + query.groupDepth ∧
      outline.groups = (level.encloses query).toNat + query.groupCount := by
  induction query generalizing level first with
  | allResults => exact absurd hreadable id
  | relational property relation =>
    have hgap : Gap [' '] := gap_singleton rfl
    refine ⟨.expression property [' '] relation [' '], ⟨hreadable, hgap, hgap⟩, ?_, rfl, rfl, rfl⟩
    simp [Outline.text, print, enclose]
  | joined junction left right ihleft ihright =>
    obtain ⟨hleft, hright⟩ := hreadable
    have hgap : Gap [' '] := gap_singleton rfl
    obtain ⟨left', hleft', hleftText, hleftQuery, hleftDepth, hleftGroups⟩ :=
      ihleft hleft (.ofJunction junction)
    obtain ⟨right', hright', hrightText, hrightQuery, hrightDepth, hrightGroups⟩ :=
      ihright hright (.rightOf junction)
    rw [← Junction.groups_left] at hleftText hleftDepth hleftGroups
    rw [← Junction.groups_right] at hrightText hrightDepth hrightGroups
    let whole : Outline := .joined junction left' [' '] [' '] right'
    have hfits : ∀ wider : Level, wider.admits junction = true → whole.Fits wider first :=
      fun wider hadmits => ⟨hadmits, hleft', hgap.2, fun _ => hgap.1, hgap, hright'⟩
    have htext : whole.text = (print (.joined junction left right)).toList := by
      simp only [whole, Outline.text, hleftText, hrightText, print, String.toList_append]
      rfl
    have hquery : whole.query = .joined junction left right := by
      simp only [whole, Outline.query, hleftQuery, hrightQuery]
    have hdepth : whole.depth = groupDepth (.joined junction left right) := by
      simp only [whole, Outline.depth, hleftDepth, hrightDepth, groupDepth]
    have hgroups : whole.groups = groupCount (.joined junction left right) := by
      simp only [whole, Outline.groups, hleftGroups, hrightGroups, groupCount]
    cases hadmits : level.admits junction with
    | true =>
      refine ⟨whole, hfits level hadmits, ?_, hquery, ?_, ?_⟩
      · simp [hadmits, htext, enclose]
      · simp [hadmits, hdepth]
      · simp [hadmits, hgroups]
    | false =>
      have hinner := hfits .disjunction rfl
      refine ⟨.group [] whole [], ⟨blank_nil, hinner, blank_nil⟩, ?_, hquery, ?_, ?_⟩
      · simp [hadmits, htext, enclose, Outline.text]
      · simp only [Level.encloses_joined, hadmits, Outline.depth, hdepth, Bool.not_false,
          Bool.toNat_true]
        omega
      · simp only [Level.encloses_joined, hadmits, Outline.groups, hgroups, Bool.not_false,
          Bool.toNat_true]
        omega

/-- A readable query has a spelling that spans its printed text, with the parentheses that
printing writes. -/
theorem Readable.exists_spans {query : Query} (hreadable : query.Readable true) :
    ∃ outline : Outline, outline.Spans query.print.toList ∧ outline.query = query ∧
      outline.depth = query.groupDepth ∧ outline.groups = query.groupCount := by
  obtain ⟨outline, hfits, htext, hquery, hdepth, hgroups⟩ := hreadable.exists_outline .disjunction
  rw [Level.encloses_disjunction, Bool.toNat_false, Nat.zero_add] at hdepth hgroups
  rw [Level.encloses_disjunction, enclose_false] at htext
  exact ⟨outline, ⟨hfits, [], [], blank_nil, blank_nil, by simp [htext]⟩, hquery, hdepth, hgroups⟩

end Query

end SearchCriteria
