/-!
# Limits

What a reader accepts is bounded twice: in how many parentheses may be open at
once, and in how many expressions one query may combine.
-/

namespace SearchCriteria

/-- The bounds on an accepted query. -/
structure Limits where
  /-- The most parentheses that may be open at once. -/
  maxNestingDepth : Nat := 64
  /-- The most relational expressions that one query may combine. A single
  expression is always accepted. -/
  maxTerms : Nat := 1024
  deriving DecidableEq

/-- The limits that hold where none are given. -/
def Limits.usual : Limits := {}

end SearchCriteria
