import SearchCriteria.Proofs.Sql.Tokens

/-!
# Reading rendered conditions back

Every junction of a rendered condition stands in its own parentheses, so the reader finds at
most one junction between two operands, and the precedence of the two keywords never counts.
-/

namespace SearchCriteria

namespace Sql.Condition

variable {junction : Junction} {operand : Reading Token Condition}
  {tokens rest rest' : List Token} {left right : Condition}

/-- Without a junction behind it, an operand is read alone. -/
theorem readJoined_of_eq_none (hleft : operand tokens = some (left, rest))
    (hnone : readSide junction operand rest = none) :
    readJoined junction operand tokens = some (left, rest) := by
  simp [readJoined, hleft, readMany_of_eq_none hnone]

/-- With one junction behind it, an operand is joined with the one behind that. -/
theorem readJoined_of_eq_some
    (hleft : operand tokens = some (left, .word (keyword junction) :: rest))
    (hright : operand rest = some (right, rest'))
    (hnone : readSide junction operand rest' = none) :
    readJoined junction operand tokens = some (.joined junction left right, rest') := by
  have hside : readSide junction operand (.word (keyword junction) :: rest) =
      some (right, rest') := by
    rw [readSide, if_pos rfl, hright]
  have hmany := readMany_of_eq_some hside hnone (List.cons_ne_nil _ _)
  simp [readJoined, hleft, hmany]

/-- The junctions on the longest way down to a simple condition. -/
def depth : Condition → Nat
  | joined _ left right => max left.depth right.depth + 1
  | _ => 0

/-- Each junction on a way down has parentheses of its own. -/
theorem depth_le_length (condition : Condition) : condition.depth ≤ condition.tokens.length := by
  induction condition with
  | joined junction left right ihleft ihright =>
    simp only [depth, Condition.tokens, List.length_cons, List.length_append]
    omega
  | _ => exact Nat.zero_le _

/-- A junction in parentheses is read between its two operands. -/
theorem readWithin_joined {depth : Nat} (rest : List Token)
    (hleft : ∀ rest, readOperand (readWithin depth) (left.tokens ++ rest) = some (left, rest))
    (hright : ∀ rest, readOperand (readWithin depth) (right.tokens ++ rest) = some (right, rest)) :
    readWithin (depth + 1)
        (left.tokens ++ .word (keyword junction) :: (right.tokens ++ .mark ')' :: rest)) =
      some (.joined junction left right, .mark ')' :: rest) := by
  have hclose : ∀ (junction : Junction) (operand : Reading Token Condition),
      readSide junction operand (.mark ')' :: rest) = none := fun _ _ => rfl
  cases junction with
  | and =>
    have hand := readJoined_of_eq_some (hleft _) (hright _) (hclose .and _)
    exact readJoined_of_eq_none hand (hclose .or _)
  | or =>
    have hother : ∀ rest, readSide .and (readOperand (readWithin depth))
        (.word (keyword .or) :: rest) = none := fun _ => rfl
    have hfirst := readJoined_of_eq_none (hleft _) (hother (right.tokens ++ .mark ')' :: rest))
    have hsecond := readJoined_of_eq_none (hright _) (hclose .and _)
    exact readJoined_of_eq_some hfirst hsecond (hclose .or _)

/-- A condition is read back from its tokens, whatever follows. -/
theorem readOperand_tokens (condition : Condition) {depth : Nat} (hdepth : condition.depth ≤ depth)
    (rest : List Token) :
    readOperand (readWithin depth) (condition.tokens ++ rest) = some (condition, rest) := by
  induction condition generalizing depth rest with
  | always => rfl
  | compare name comparator text => cases comparator <;> rfl
  | occurs name text found => cases found <;> rfl
  | startsWith name text => rfl
  | isNull name null => cases null <;> rfl
  | joined junction left right ihleft ihright =>
    rw [Condition.depth] at hdepth
    cases depth with
    | zero => omega
    | succ depth =>
      have hleft : left.depth ≤ depth := by omega
      have hright : right.depth ≤ depth := by omega
      have hread : readWithin (depth + 1)
          (left.tokens ++ .word (keyword junction) :: (right.tokens ++ .mark ')' :: rest)) =
            some (.joined junction left right, .mark ')' :: rest) :=
        readWithin_joined rest (ihleft hleft) (ihright hright)
      simp only [Condition.tokens, List.cons_append, List.append_assoc, List.nil_append,
        readOperand, hread]

/-- The text of a condition is read back as the condition. -/
theorem parse?_render (condition : Condition) : parse? condition.render = some condition := by
  have hread := condition.readOperand_tokens condition.depth_le_length []
  rw [List.append_nil] at hread
  have hend : ∀ (junction : Junction) (operand : Reading Token Condition),
      readSide junction operand [] = none := fun _ _ => rfl
  have hwithin : readWithin (condition.tokens.length + 1) condition.tokens = some (condition, []) :=
    readJoined_of_eq_none (readJoined_of_eq_none hread (hend .and _)) (hend .or _)
  simp [parse?, ofText_render, hwithin]

end Sql.Condition

end SearchCriteria
