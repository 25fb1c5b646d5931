import Mathlib.Data.List.TakeDrop
import Mathlib.Data.List.TakeWhile
import SearchCriteria.Toml.Statement

/-!
# Numerals

A number is written with its decimal digits. As a word of a document they stand for that number
and for nothing else, if it has 64 bits.
-/

namespace SearchCriteria.Toml

/-- All characters of a word are decimal digits. -/
def AllDigits (word : List Char) : Prop := ∀ c ∈ word, c.isDigit = true

variable {word : List Char}

/-- Behind some of the digits there are digits. -/
theorem AllDigits.drop (hword : AllDigits word) (count : Nat) : AllDigits (word.drop count) :=
  fun c hc => hword c (List.mem_of_mem_drop hc)

end SearchCriteria.Toml
