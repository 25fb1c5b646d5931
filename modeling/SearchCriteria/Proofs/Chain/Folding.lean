import Mathlib.Algebra.Ring.Nat
import SearchCriteria.Chain
import SearchCriteria.Query.Shape

/-!
# Folding pending junctions

A chain is only ever read through what `reduce` makes of it. A floor may be lowered
in steps, junctions below the floor are left alone, and no expression is lost on
the way from the chain into the query.
-/

namespace SearchCriteria.Chain

/-- All waiting junctions bind looser than the floor. -/
def Below (floor : Nat) (pending : List Pending) : Prop :=
  ∀ entry ∈ pending, entry.priority < floor

/-- The expressions that wait on the left of a junction. -/
def waiting (pending : List Pending) : Nat :=
  (pending.map (·.left.leaves)).sum

@[simp] theorem below_nil (floor : Nat) : Below floor [] := by simp [Below]

@[simp] theorem below_cons {floor : Nat} {top : Pending} {rest : List Pending} :
    Below floor (top :: rest) ↔ top.priority < floor ∧ Below floor rest := by
  simp [Below]

/-- A higher floor leaves the same junctions below it. -/
theorem Below.mono {low high : Nat} {pending : List Pending} (hbelow : Below low pending)
    (hle : low ≤ high) : Below high pending :=
  fun entry hentry => Nat.lt_of_lt_of_le (hbelow entry hentry) hle

@[simp] theorem waiting_nil : waiting [] = 0 := rfl

@[simp] theorem waiting_cons (top : Pending) (rest : List Pending) :
    waiting (top :: rest) = top.left.leaves + waiting rest := by
  simp [waiting]

/-- Junctions below the floor all go on waiting. -/
theorem reduce_of_below {floor : Nat} {pending : List Pending} (hbelow : Below floor pending)
    (operand : Query) : reduce floor pending operand = (operand, pending) := by
  cases pending with
  | nil => rfl
  | cons top rest => exact reduce_cons_of_lt (below_cons.mp hbelow).1 rest operand

/-- Folding down to a floor and then to a lower one folds to the lower one. -/
theorem reduce_reduce {low high : Nat} (hle : low ≤ high) (pending : List Pending)
    (operand : Query) :
    reduce low (reduce high pending operand).2 (reduce high pending operand).1 =
      reduce low pending operand := by
  induction pending generalizing operand with
  | nil => rfl
  | cons top rest ih =>
    by_cases htop : high ≤ top.priority
    · have hlow : low ≤ top.priority := Nat.le_trans hle htop
      rw [reduce_cons_of_le htop, reduce_cons_of_le hlow]
      exact ih _
    · rw [reduce_cons_of_lt (Nat.lt_of_not_le htop)]

/-- Only junctions at the top of the chain are folded. -/
theorem reduce_suffix (floor : Nat) (pending : List Pending) (operand : Query) :
    (reduce floor pending operand).2 <:+ pending := by
  induction pending generalizing operand with
  | nil => exact List.suffix_refl []
  | cons top rest ih =>
    by_cases htop : floor ≤ top.priority
    · rw [reduce_cons_of_le htop]
      exact (ih _).trans (List.suffix_cons top rest)
    · simp only [reduce_cons_of_lt (Nat.lt_of_not_le htop), List.suffix_refl]

/-- Folding moves expressions from the chain into the query and drops none. -/
theorem leaves_reduce (floor : Nat) (pending : List Pending) (operand : Query) :
    (reduce floor pending operand).1.leaves + waiting (reduce floor pending operand).2 =
      operand.leaves + waiting pending := by
  induction pending generalizing operand with
  | nil => rfl
  | cons top rest ih =>
    by_cases htop : floor ≤ top.priority
    · rw [reduce_cons_of_le htop, ih, waiting_cons]
      simp only [Query.leaves]
      omega
    · rw [reduce_cons_of_lt (Nat.lt_of_not_le htop)]

/-- All junctions bind at least as tightly as the lowest floor. -/
theorem reduce_zero_eq_nil (pending : List Pending) (operand : Query) :
    (reduce 0 pending operand).2 = [] := by
  induction pending generalizing operand with
  | nil => rfl
  | cons top rest ih =>
    rw [reduce_cons_of_le (Nat.zero_le _)]
    exact ih _

/-- At the end no junction waits, so the query has all the expressions. -/
theorem leaves_complete (chain : Chain) (operand : Query) :
    (chain.complete operand).leaves = operand.leaves + waiting chain.pending := by
  have hleaves := leaves_reduce 0 chain.pending operand
  rw [reduce_zero_eq_nil, waiting_nil, Nat.add_zero] at hleaves
  exact hleaves

/-- A junction takes from the chain what is at least as tight as itself, and the rest
goes on waiting below it. -/
theorem pending_push {chain : Chain} {operand left : Query} {rest : List Pending}
    {priority : Nat} (hreduce : reduce priority chain.pending operand = (left, rest))
    (junction : Junction) :
    (chain.push operand junction priority).pending = ⟨left, junction, priority⟩ :: rest := by
  simp only [push, hreduce]

/-- Pushing a junction lets one more operand wait. -/
theorem waiting_push (chain : Chain) (operand : Query) (junction : Junction)
    (priority : Nat) :
    waiting (chain.push operand junction priority).pending =
      operand.leaves + waiting chain.pending := by
  rw [pending_push rfl, waiting_cons]
  exact leaves_reduce priority chain.pending operand

end SearchCriteria.Chain
