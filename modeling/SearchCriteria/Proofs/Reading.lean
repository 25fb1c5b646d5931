import SearchCriteria.Reading

/-!
# Reading part by part

A sequence that is put together from parts is read part by part, if what stands behind a part
cannot be taken for more of it. So what a part yields is told for every rest that begins with
something that ends the part.
-/

namespace SearchCriteria

variable {σ α : Type}

/-- What stands in front of the sequence, if anything does, is as required. -/
def Front (required : σ → Prop) (sequence : List σ) : Prop := ∀ a ∈ sequence.head?, required a

instance (required : σ → Prop) [DecidablePred required] (sequence : List σ) :
    Decidable (Front required sequence) := Option.decidableForallMem sequence.head?

/-- `Yields read ends part results`: the part is read as the results, whatever follows, unless
that begins with what does not end the part. -/
def Yields (read : List σ → Option (List α)) (ends : σ → Prop) (part : List σ)
    (results : List α) : Prop :=
  ∀ rest, Front ends rest → read (part ++ rest) = (read rest).map (results ++ ·)

@[simp] theorem front_nil (required : σ → Prop) : Front required [] := by simp [Front]

@[simp] theorem front_cons {required : σ → Prop} {a : σ} {rest : List σ} :
    Front required (a :: rest) ↔ required a := by
  simp [Front]

/-- A part that begins as required lets the whole begin so, whatever follows. -/
theorem Front.append {required : σ → Prop} {part rest : List σ} (hpart : Front required part)
    (hrest : Front required rest) : Front required (part ++ rest) := by
  cases part with
  | nil => exact hrest
  | cons a more => exact hpart

namespace Yields

variable {read : List σ → Option (List α)} {ends : σ → Prop} {part : List σ} {results : List α}

theorem nil : Yields read ends [] [] := fun rest _ => by simp

/-- What is read alone adds its own results to those of the part behind it. -/
theorem cons {a : σ} (own : List α) (hyields : Yields read ends part results)
    (hown : ∀ rest, read (a :: rest) = (read rest).map (own ++ ·)) :
    Yields read ends (a :: part) (own ++ results) := by
  intro rest hrest
  rw [List.cons_append, hown, hyields rest hrest, Option.map_map]
  simp only [Function.comp_def, List.append_assoc]

/-- Parts are read one behind the other, if the second one ends the first. -/
theorem append {more : List σ} {moreResults : List α} (hyields : Yields read ends part results)
    (hmore : Yields read ends more moreResults) (hends : Front ends more) :
    Yields read ends (part ++ more) (results ++ moreResults) := by
  intro rest hrest
  rw [List.append_assoc, hyields _ (hends.append hrest), hmore rest hrest, Option.map_map]
  simp only [Function.comp_def, List.append_assoc]

/-- A part is read to the end of the sequence. -/
theorem read_eq (hyields : Yields read ends part results) :
    read part = (read []).map (results ++ ·) := by
  have hread := hyields [] (front_nil ends)
  rwa [List.append_nil] at hread

end Yields

section Many

variable {item : Reading σ α} {sequence rest : List σ}

/-- Where no item is in front, none is read, however many are allowed. -/
theorem readAtMost_of_eq_none (hnone : item rest = none) (count : Nat) :
    readAtMost item count rest = ([], rest) := by
  cases count with
  | zero => rfl
  | succ count => simp [readAtMost, hnone]

/-- A single item in front is read, and then none. -/
theorem readMany_of_eq_some {first : α} (hitem : item sequence = some (first, rest))
    (hnone : item rest = none) (hne : sequence ≠ []) :
    readMany item sequence = ([first], rest) := by
  cases sequence with
  | nil => exact absurd rfl hne
  | cons a more => simp [readMany, readAtMost, hitem, readAtMost_of_eq_none hnone]

variable {β : Type} {part : β → List σ} {result : β → α} {values : List β}

end Many

end SearchCriteria
