import SearchCriteria.Chain
import SearchCriteria.Grammar

/-!
# Levels and priorities

A junction is admitted at some levels of the grammar and not at others, and a chain
folds by priorities. Each level has a floor of priority: what the level admits binds
at least as tightly, and what may wait outside of it binds looser.
-/

namespace SearchCriteria.Grammar

namespace Level

/-- The level of what a junction joins, which is also the level of its left side. -/
def ofJunction : Junction → Level
  | .and => conjunction
  | .or => disjunction

/-- The level of the right side of a junction. -/
def rightOf : Junction → Level
  | .and => term
  | .or => conjunction

/-- Whether a phrase of the level may be joined by the junction without parentheses. -/
def admits : Level → Junction → Bool
  | term, _ => false
  | conjunction, junction => junction = .and
  | disjunction, _ => true

/-- The least priority of a junction within a phrase of the level that stands in
`depth` parentheses. The junctions of a term are one parenthesis deeper. -/
def floor (level : Level) (depth : Nat) : Nat :=
  3 * depth + match level with
    | disjunction => 1
    | conjunction => 2
    | term => 4

@[simp] theorem admits_ofJunction (junction : Junction) :
    (ofJunction junction).admits junction = true := by
  cases junction <;> rfl

@[simp] theorem floor_ofJunction (junction : Junction) (depth : Nat) :
    (ofJunction junction).floor depth = junction.priority depth := by
  cases junction <;> rfl

/-- Behind a parenthesis a disjunction has the floor that a term has before it. -/
theorem floor_disjunction_succ (depth : Nat) :
    disjunction.floor (depth + 1) = term.floor depth := by
  simp only [floor]
  omega

theorem floor_le_term (level : Level) (depth : Nat) : level.floor depth ≤ term.floor depth := by
  cases level <;> simp [floor]

theorem disjunction_floor_le (level : Level) (depth : Nat) :
    disjunction.floor depth ≤ level.floor depth := by
  cases level <;> simp [floor]

/-- A junction that a level admits binds at least as tightly as the floor. -/
theorem floor_le_priority {level : Level} {junction : Junction}
    (hadmits : level.admits junction = true) (depth : Nat) :
    level.floor depth ≤ junction.priority depth := by
  cases level <;> cases junction <;> simp_all [admits, floor, Junction.priority]

/-- A junction binds looser than all junctions of its right side. -/
theorem priority_lt_floor_rightOf (junction : Junction) (depth : Nat) :
    junction.priority depth < (rightOf junction).floor depth := by
  cases junction <;> simp [rightOf, floor, Junction.priority]

/-- Levels with a lower floor admit more junctions. -/
theorem admits_of_floor_le {level wider : Level} {depth : Nat} {junction : Junction}
    (hle : wider.floor depth ≤ level.floor depth) (hadmits : level.admits junction = true) :
    wider.admits junction = true := by
  cases level <;> cases wider <;> cases junction <;> simp_all [admits, floor]

/-- What binds tighter than a junction may be its right side. -/
theorem floor_rightOf_le {level : Level} {junction : Junction} {depth : Nat}
    (hlt : junction.priority depth < level.floor depth) :
    (rightOf junction).floor depth ≤ level.floor depth := by
  cases level <;> cases junction <;> simp_all [rightOf, floor, Junction.priority]

end Level

end SearchCriteria.Grammar
