import SearchCriteria.Proofs.Acceptance

/-!
# How accepted queries branch

However long a text is, the limits bound the shape of its query. Each junction on a way down
takes an expression of its own, which bounds the height. And a junction can stand on the right
of another one only if it binds tighter, for which the grammar has two steps between two
parentheses; this bounds how often a way down turns to the right.
-/

namespace SearchCriteria

open Grammar

namespace Grammar

/-- The most steps to a right side on a way down within a phrase of the level, as long as no
parenthesis is passed. -/
def Level.rightSteps : Level → Nat
  | term => 0
  | conjunction => 1
  | disjunction => 2

/-- The right side of a junction has one step less than what the junction joins. -/
theorem Level.rightSteps_rightOf (junction : Junction) :
    (rightOf junction).rightSteps + 1 = (ofJunction junction).rightSteps := by
  cases junction <;> rfl

/-- A level has all the steps of the junctions that it admits. -/
theorem Level.rightSteps_ofJunction_le {level : Level} {junction : Junction}
    (hadmits : level.admits junction = true) :
    (ofJunction junction).rightSteps ≤ level.rightSteps := by
  cases level with
  | term => cases hadmits
  | conjunction =>
    cases junction with
    | and => exact Nat.le_refl _
    | or => cases hadmits
  | disjunction => cases junction <;> decide

/-- Each parenthesis on a way down admits two more steps to the right. -/
theorem Outline.Fits.rightSteps_le {outline : Outline} {level : Level} {first : Bool}
    (hfits : outline.Fits level first) :
    outline.query.rightSteps ≤ level.rightSteps + 2 * outline.depth := by
  induction outline generalizing level first with
  | expression property gap relation gap' => exact Nat.zero_le _
  | group blank inner blank' ih =>
    have hinner := ih hfits.2.1
    simp only [query, depth, Level.rightSteps] at hinner ⊢
    omega
  | joined junction left blank gap right ihleft ihright =>
    obtain ⟨hadmits, hleft, -, -, -, hright⟩ := hfits
    have hleft' := ihleft hleft
    have hright' := ihright hright
    have hsteps := Level.rightSteps_rightOf junction
    have hlevel := Level.rightSteps_ofJunction_le hadmits
    simp only [query, depth, Query.rightSteps]
    omega

end Grammar

namespace Query

variable {limits : Limits}

/-- The query of an accepted text is lower than the expressions that the limits admit are many,
and each way down to a leaf turns to the right at most twice for each parenthesis that may be
open, and twice outside of them all. -/
theorem height_rightSteps_le_of_parse {text : String} {query : Query}
    (hparse : parse limits text = .ok query) :
    query.height ≤ max 1 limits.maxTerms - 1 ∧
      query.rightSteps ≤ 2 * (limits.maxNestingDepth + 1) := by
  rcases parse_eq_ok_iff.mp hparse with ⟨rfl, -⟩ | ⟨outline, ⟨hfits, -⟩, rfl, hdepth, hterms⟩
  · exact ⟨Nat.zero_le _, Nat.zero_le _⟩
  · have hheight := outline.query.height_lt_leaves
    have hsteps := hfits.rightSteps_le
    simp only [Level.rightSteps] at hsteps
    constructor <;> omega

/-- A text whose query is as high, and turns as often to the right, as the limits admit. -/
theorem height_rightSteps_le_of_parse_attained :
    let query : Query := .joined .or (.relational "a" (.compare .lessThan ""))
      (.joined .and (.relational "b" (.compare .lessThan ""))
        (.joined .or (.relational "c" (.compare .lessThan ""))
          (.joined .and (.relational "d" (.compare .lessThan ""))
            (.relational "e" (.compare .lessThan "")))))
    parse ⟨1, 5⟩ "a < \"\" or b < \"\" and (c < \"\" or d < \"\" and e < \"\")" = .ok query ∧
      4 ≤ query.height ∧ 4 ≤ query.rightSteps ∧
      query.height ≤ max 1 5 - 1 ∧ query.rightSteps ≤ 2 * (1 + 1) := by
  intro query
  have hparse : parse ⟨1, 5⟩ "a < \"\" or b < \"\" and (c < \"\" or d < \"\" and e < \"\")" =
      .ok query := by rfl
  exact ⟨hparse, by decide, by decide, height_rightSteps_le_of_parse hparse⟩

end Query

end SearchCriteria
