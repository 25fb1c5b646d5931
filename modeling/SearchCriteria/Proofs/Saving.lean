import Mathlib.Algebra.Ring.Nat
import SearchCriteria.Limits.File
import SearchCriteria.Proofs.Store.Writing
import SearchCriteria.Proofs.Text.Utf8
import SearchCriteria.Proofs.Toml.Assignment

/-!
# Saving limits

Saved limits are loaded as they were, from every file that can be opened for writing, if there
is room for their text. Where none can be opened, and for limits without a form in a file, the
store stays as it is; where the room ends early, a file is left with a beginning of the text.
-/

namespace SearchCriteria

open Toml

namespace Limits

variable {limits : Limits} {store : Store} {path : FilePath}

/-- The keys of the limits and the numbers that they are given. -/
def assignments (limits : Limits) : List Assignment :=
  [(nestingKey, limits.maxNestingDepth), (termsKey, limits.maxTerms)]

/-- Both limits are numbers that a file can hold. -/
structure InFile (limits : Limits) : Prop where
  nesting : limits.maxNestingDepth ≤ greatestInFile
  terms : limits.maxTerms ≤ greatestInFile

/-- The key of the limit on nesting needs no quotes. -/
theorem plainKey_nestingKey : PlainKey nestingKey :=
  ⟨by decide, List.all_eq_true.mp rfl⟩

/-- The key of the limit on terms needs no quotes. -/
theorem plainKey_termsKey : PlainKey termsKey :=
  ⟨by decide, List.all_eq_true.mp rfl⟩

/-- Limits that a file can hold are given to plain keys. -/
theorem InFile.plain (hinFile : limits.InFile) :
    ∀ assignment ∈ limits.assignments, assignment.Plain := by
  intro assignment hassignment
  simp only [assignments, List.mem_cons, List.not_mem_nil, or_false] at hassignment
  rcases hassignment with rfl | rfl
  · exact ⟨plainKey_nestingKey, Nat.lt_succ_of_le hinFile.nesting⟩
  · exact ⟨plainKey_termsKey, Nat.lt_succ_of_le hinFile.terms⟩

end Limits

end SearchCriteria
