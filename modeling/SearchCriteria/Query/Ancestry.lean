import SearchCriteria.Query.Matching
import SearchCriteria.Text.Split

/-!
# Ancestry of classes

A class is a path of segments with dots between them. A segment may be empty, like the only one
of the empty path.
-/

namespace SearchCriteria

/-- The segments of a path, the outermost first. -/
def segments (path : String) : List (List Char) := splitAtEach '.' path.toList

/-- Whether an item that holds the path matches the ancestor: it is the same path, or begins
with it and a dot. -/
def DerivesFrom (path ancestor : String) : Prop :=
  Comparison.derivedFrom.holds path ancestor = true
  deriving Decidable

/-- A path derives from itself and from what stands in front of each of its dots. -/
theorem derivesFrom_iff {path ancestor : String} :
    DerivesFrom path ancestor ↔
      path = ancestor ∨ ancestor.toList ++ ['.'] <+: path.toList := by
  simp [DerivesFrom, Comparison.holds, List.isPrefixOf_iff_prefix]

end SearchCriteria
