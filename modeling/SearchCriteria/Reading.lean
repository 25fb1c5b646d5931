/-!
# Reading from the front

A reading takes a part off the front of a sequence and tells what it stands for,
together with the rest; it fails where no such part is in front.
-/

namespace SearchCriteria

/-- What takes a part off the front of a sequence. -/
abbrev Reading (σ α : Type) := List σ → Option (α × List σ)

variable {σ α : Type}

/-- Reads so many items at most, until none is in front. -/
def readAtMost (item : Reading σ α) : Nat → List σ → List α × List σ
  | 0, sequence => ([], sequence)
  | count + 1, sequence =>
    match item sequence with
    | none => ([], sequence)
    | some (first, rest) =>
      let (more, rest) := readAtMost item count rest
      (first :: more, rest)

/-- Reads item after item until none is in front. Each item takes at least one part of
the sequence, so there are no more items than the sequence is long. -/
def readMany (item : Reading σ α) (sequence : List σ) : List α × List σ :=
  readAtMost item sequence.length sequence

@[simp] theorem readMany_nil (item : Reading σ α) : readMany item [] = ([], []) := rfl

/-- Where no item is in front, none is read. -/
theorem readMany_of_eq_none {item : Reading σ α} {sequence : List σ}
    (hnone : item sequence = none) : readMany item sequence = ([], sequence) := by
  cases sequence with
  | nil => rfl
  | cons a rest => simp [readMany, readAtMost, hnone]

end SearchCriteria
