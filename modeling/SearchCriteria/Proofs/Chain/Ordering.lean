import SearchCriteria.Limits
import SearchCriteria.Proofs.Chain.Folding

/-!
# The order of waiting junctions

A junction that is pushed takes all that binds as tightly as itself from the chain, so what
waits binds tighter and tighter from the bottom to the top. There are two priorities for each
number of open parentheses, and therefore no more junctions wait than twice as many as there are
such numbers, however long a text is.
-/

namespace SearchCriteria

/-- How many priorities are lower than that of a junction inside `depth` open parentheses. -/
def Junction.rank (junction : Junction) (depth : Nat) : Nat :=
  2 * depth + match junction with
    | .or => 0
    | .and => 1

/-- Higher priorities have higher ranks. -/
theorem Junction.rank_lt_rank {junction junction' : Junction} {depth depth' : Nat}
    (hlt : junction.priority depth < junction'.priority depth') :
    junction.rank depth < junction'.rank depth' := by
  cases junction <;> cases junction' <;> simp only [priority, rank] at hlt ⊢ <;> omega

namespace Chain

/-- Each waiting junction binds tighter than those that have been waiting longer. -/
def Increasing (pending : List Pending) : Prop :=
  pending.Pairwise fun later earlier => earlier.priority < later.priority

/-- Each waiting junction has the priority of a place with so many open parentheses at most. -/
def Priced (greatest : Nat) (pending : List Pending) : Prop :=
  ∀ entry ∈ pending, ∃ depth ≤ greatest, entry.priority = entry.junction.priority depth

/-- The wildcard does not stand on the left of any waiting junction. -/
def WithoutWildcard (pending : List Pending) : Prop :=
  ∀ entry ∈ pending, Query.allResults ∉ entry.left.leafList

/-- Folding adds no leaf to those of the operand and of the left sides. -/
theorem mem_leafList_reduce {floor : Nat} {pending : List Pending} {operand leaf : Query}
    (hleaf : leaf ∈ (reduce floor pending operand).1.leafList) :
    leaf ∈ operand.leafList ∨ ∃ entry ∈ pending, leaf ∈ entry.left.leafList := by
  induction pending generalizing operand with
  | nil => exact .inl hleaf
  | cons top rest ih =>
    by_cases htop : floor ≤ top.priority
    · rw [reduce_cons_of_le htop] at hleaf
      rcases ih hleaf with hjoined | ⟨entry, hentry, hleft⟩
      · rcases List.mem_append.mp hjoined with hleft | hoperand
        · exact .inr ⟨top, List.mem_cons_self, hleft⟩
        · exact .inl hoperand
      · exact .inr ⟨entry, List.mem_cons_of_mem top hentry, hleft⟩
    · rw [reduce_cons_of_lt (Nat.lt_of_not_le htop)] at hleaf
      exact .inl hleaf

/-- What goes on waiting behind a fold binds looser than the floor. -/
theorem Increasing.below_reduce {pending : List Pending} (hincreasing : Increasing pending)
    (floor : Nat) (operand : Query) : Below floor (reduce floor pending operand).2 := by
  induction pending generalizing operand with
  | nil => exact below_nil floor
  | cons top rest ih =>
    obtain ⟨htop, hrest⟩ := List.pairwise_cons.mp hincreasing
    by_cases hfold : floor ≤ top.priority
    · rw [reduce_cons_of_le hfold]
      exact ih hrest _
    · have hlt := Nat.lt_of_not_le hfold
      rw [reduce_cons_of_lt hlt]
      exact below_cons.mpr ⟨hlt, Below.mono htop (Nat.le_of_lt hlt)⟩

/-- A junction that is pushed binds tighter than all that goes on waiting. -/
theorem Increasing.push {chain : Chain} (hincreasing : Increasing chain.pending)
    (operand : Query) (junction : Junction) (priority : Nat) :
    Increasing (chain.push operand junction priority).pending := by
  rw [pending_push rfl]
  refine List.pairwise_cons.mpr ⟨hincreasing.below_reduce priority operand, ?_⟩
  exact hincreasing.sublist (reduce_suffix priority chain.pending operand).sublist

/-- A junction that is pushed has the priority of its place. -/
theorem Priced.push {chain : Chain} {greatest depth : Nat}
    (hpriced : Priced greatest chain.pending) (hdepth : depth ≤ greatest) (operand : Query)
    (junction : Junction) :
    Priced greatest (chain.push operand junction (junction.priority depth)).pending := by
  rw [pending_push rfl]
  refine List.forall_mem_cons.mpr ⟨⟨depth, hdepth, rfl⟩, ?_⟩
  intro entry hentry
  exact hpriced entry ((reduce_suffix _ _ _).subset hentry)

/-- A junction that is pushed has nothing on its left but the operand and what has been on the
left of others. -/
theorem WithoutWildcard.push {chain : Chain} {operand : Query}
    (hpending : WithoutWildcard chain.pending) (hoperand : Query.allResults ∉ operand.leafList)
    (junction : Junction) (priority : Nat) :
    WithoutWildcard (chain.push operand junction priority).pending := by
  rw [pending_push rfl]
  refine List.forall_mem_cons.mpr ⟨?_, ?_⟩
  · intro hwildcard
    rcases mem_leafList_reduce hwildcard with hleaf | ⟨entry, hentry, hleaf⟩
    · exact hoperand hleaf
    · exact hpending entry hentry hleaf
  · intro entry hentry
    exact hpending entry ((reduce_suffix _ _ _).subset hentry)

/-- No more junctions wait below a priority than there are lower ones. -/
theorem Increasing.length_le_rank {pending : List Pending} {greatest depth : Nat}
    {junction : Junction} (hincreasing : Increasing pending) (hpriced : Priced greatest pending)
    (hbelow : Below (junction.priority depth) pending) :
    pending.length ≤ junction.rank depth := by
  induction pending generalizing junction depth with
  | nil => exact Nat.zero_le _
  | cons top rest ih =>
    obtain ⟨htop, hrest⟩ := List.pairwise_cons.mp hincreasing
    obtain ⟨⟨depth', -, hpriority⟩, hpriced'⟩ := List.forall_mem_cons.mp hpriced
    have hlt := (below_cons.mp hbelow).1
    rw [hpriority] at hlt htop
    have hlength := ih hrest hpriced' htop
    have hrank := Junction.rank_lt_rank hlt
    rw [List.length_cons]
    omega

/-- Two junctions wait at most for each number of open parentheses. -/
theorem Increasing.length_le {pending : List Pending} {greatest : Nat}
    (hincreasing : Increasing pending) (hpriced : Priced greatest pending) :
    pending.length ≤ 2 * (greatest + 1) := by
  have hbelow : Below (Junction.or.priority (greatest + 1)) pending := by
    intro entry hentry
    obtain ⟨depth, hdepth, hpriority⟩ := hpriced entry hentry
    rw [hpriority]
    cases entry.junction <;> simp only [Junction.priority] <;> omega
  exact hincreasing.length_le_rank hpriced hbelow

/-- Of the expressions that wait on the left of a junction, one is the first of its left side,
and each other one stands behind a junction in it. -/
theorem waiting_eq (pending : List Pending) :
    waiting pending = pending.length + (pending.map (·.left.junctions)).sum := by
  induction pending with
  | nil => rfl
  | cons top rest ih =>
    have hleaves := top.left.junctions_add_one
    rw [waiting_cons, ih, List.length_cons, List.map_cons, List.sum_cons]
    omega

/-- What holds of the chain of a reader within its limits. -/
structure Invariant (limits : Limits) (chain : Chain) : Prop where
  /-- The waiting junctions bind tighter and tighter, the latest at the top. -/
  increasing : chain.pending.Pairwise fun later earlier => earlier.priority < later.priority
  /-- All junctions are counted, those that wait and those that have been folded. -/
  joined_eq : chain.joined = chain.pending.length + (chain.pending.map (·.left.junctions)).sum
  /-- There is room for the expression behind the last junction. -/
  joined_le : chain.joined ≤ max 1 limits.maxTerms - 1
  /-- The wildcard does not stand on the left of any junction. -/
  no_wildcard : ∀ entry ∈ chain.pending, Query.allResults ∉ entry.left.leafList
  /-- However many junctions have been read, only so many wait. -/
  length_le : chain.pending.length ≤ 2 * (limits.maxNestingDepth + 1)

end Chain

end SearchCriteria
