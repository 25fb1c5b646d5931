/-!
# Separators

Words of a search criteria text are separated by runs of six blank characters.
No other character separates, whatever Unicode says of it.
-/

namespace SearchCriteria

/-- The characters that separate words: the space, the horizontal and vertical
tabs, the line and form feeds, and the carriage return. -/
def separators : List Char := [' ', '\t', '\n', '\x0b', '\x0c', '\r']

/-- Whether a character separates words. -/
def isSeparator (c : Char) : Bool := separators.contains c

@[simp] theorem isSeparator_iff {c : Char} : isSeparator c = true ↔ c ∈ separators := by
  simp [isSeparator]

end SearchCriteria
