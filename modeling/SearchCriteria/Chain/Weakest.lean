import SearchCriteria.Chain

/-!
# The weakest junction of a sequence

A sequence of expressions with junctions between them can be grouped all at once: the
last of the junctions that bind loosest joins what stands before it with what stands
behind it, and both sides are grouped in the same way.
-/

namespace SearchCriteria

/-- A junction in a sequence, with the expression behind it. -/
structure Link where
  junction : Junction
  priority : Nat
  operand : Query

namespace Link

/-- The last of the loosest links, with those before and those behind it. -/
def splitAtWeakest : List Link → Option (List Link × Link × List Link)
  | [] => none
  | link :: rest =>
    match splitAtWeakest rest with
    | some (before, weakest, behind) =>
      if weakest.priority ≤ link.priority then some (link :: before, weakest, behind)
      else some ([], link, rest)
    | none => some ([], link, rest)

/-- The parts of a sequence that is split, put together, are the sequence. -/
theorem append_of_splitAtWeakest {links before behind : List Link} {weakest : Link}
    (hsplit : splitAtWeakest links = some (before, weakest, behind)) :
    links = before ++ weakest :: behind := by
  induction links generalizing before weakest behind with
  | nil => simp [splitAtWeakest] at hsplit
  | cons link rest ih =>
    rw [splitAtWeakest] at hsplit
    split at hsplit
    next before' weakest' behind' hrest =>
      split at hsplit
      · obtain ⟨rfl, rfl, rfl⟩ := by simpa using hsplit
        rw [ih hrest, List.cons_append]
      · obtain ⟨rfl, rfl, rfl⟩ := by simpa using hsplit
        rfl
    next =>
      obtain ⟨rfl, rfl, rfl⟩ := by simpa using hsplit
      rfl

/-- The query of a sequence: its first expression and the links behind it. -/
def group (first : Query) (links : List Link) : Query :=
  match _hsplit : splitAtWeakest links with
  | none => first
  | some (before, weakest, behind) =>
    .joined weakest.junction (group first before) (group weakest.operand behind)
termination_by links.length
decreasing_by
  all_goals
    have hlength := congrArg List.length (append_of_splitAtWeakest _hsplit)
    simp only [List.length_append, List.length_cons] at hlength
    omega

end Link

/-- Lets all junctions of a sequence wait and gives them its last expression. -/
def Chain.joinAll (chain : Chain) (first : Query) : List Link → Query
  | [] => chain.complete first
  | link :: rest => (chain.push first link.junction link.priority).joinAll link.operand rest

end SearchCriteria
