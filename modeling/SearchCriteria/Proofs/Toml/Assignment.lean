import SearchCriteria.Proofs.Reading
import SearchCriteria.Proofs.Toml.Numeral
import SearchCriteria.Toml.Document

/-!
# Assignments

A document may consist of lines that give numbers to keys, all without quotes. It is read as the
table of just these keys and numbers.
-/

namespace SearchCriteria.Toml

/-- The key needs no quotes. -/
structure PlainKey (key : String) : Prop where
  nonempty : key.toList ≠ []
  keyChars : ∀ c ∈ key.toList, isKeyChar c = true

/-- A key and the number that it is given. -/
abbrev Assignment := String × Nat

namespace Assignment

/-- The line that gives a key its number. -/
def line (assignment : Assignment) : List Char :=
  assignment.1.toList ++ ' ' :: '=' :: ' ' :: (Nat.toDigits 10 assignment.2 ++ ['\n'])

/-- The key needs no quotes, and the number has no more bits than an integer. -/
structure Plain (assignment : Assignment) : Prop where
  key : PlainKey assignment.1
  inRange : assignment.2 < 0x8000000000000000

/-- What the line says. -/
def statement (assignment : Assignment) : Statement :=
  .assign ⟨[], assignment.1⟩ (.integer assignment.2)

/-- What the key stands for then. -/
def entry (assignment : Assignment) : String × Node :=
  (assignment.1, .integer assignment.2)

end Assignment

variable {c : Char} {rest word : List Char}

namespace Assignment

variable {assignment : Assignment}

end Assignment

variable {assignments : List Assignment}

end SearchCriteria.Toml
