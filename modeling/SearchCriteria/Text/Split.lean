/-!
# Splitting at a mark

The pieces of a list between the occurrences of a mark. There is one piece more
than there are marks, so an empty list has one piece, which is empty.
-/

namespace SearchCriteria

/-- The pieces of a list between the occurrences of a mark. -/
def splitAtEach {α : Type} [DecidableEq α] (mark : α) : List α → List (List α)
  | [] => [[]]
  | a :: rest =>
    if a = mark then [] :: splitAtEach mark rest
    else (splitAtEach mark rest).modifyHead (a :: ·)

variable {α : Type} [DecidableEq α] {mark : α}

@[simp] theorem splitAtEach_nil : splitAtEach mark [] = [[]] := rfl

@[simp] theorem splitAtEach_cons_self (rest : List α) :
    splitAtEach mark (mark :: rest) = [] :: splitAtEach mark rest := by
  rw [splitAtEach, if_pos rfl]

theorem splitAtEach_cons_of_ne {a : α} (hne : a ≠ mark) (rest : List α) :
    splitAtEach mark (a :: rest) = (splitAtEach mark rest).modifyHead (a :: ·) := by
  rw [splitAtEach, if_neg hne]

/-- There is one piece more than there are marks. -/
theorem length_splitAtEach (list : List α) :
    (splitAtEach mark list).length = list.count mark + 1 := by
  induction list with
  | nil => rfl
  | cons a rest ih =>
    by_cases ha : a = mark
    · subst ha
      rw [splitAtEach_cons_self, List.length_cons, ih, List.count_cons_self]
    · rw [splitAtEach_cons_of_ne ha, List.length_modifyHead, ih, List.count_cons_of_ne ha]

/-- There is a first piece. -/
theorem exists_splitAtEach_eq_cons (mark : α) (list : List α) :
    ∃ first more, splitAtEach mark list = first :: more := by
  have hlength : (splitAtEach mark list).length = list.count mark + 1 := length_splitAtEach list
  exact List.exists_cons_of_length_eq_add_one hlength

end SearchCriteria
