import SearchCriteria.Chain.Weakest
import SearchCriteria.Proofs.Chain.Folding
import SearchCriteria.Proofs.Reader.Guarded

/-!
# Grouping while the junctions come in

A chain folds early, before the rest of its sequence is known. Still the query of the whole
sequence is the one that is grouped all at once at the last of the loosest junctions: what
stands before that junction has been folded when it comes, and from then on it waits
untouched below all junctions behind it until the end.
-/

namespace SearchCriteria

namespace Link

/-- Only an empty sequence cannot be split. -/
theorem eq_nil_of_splitAtWeakest {links : List Link} (hsplit : splitAtWeakest links = none) :
    links = [] := by
  cases links with
  | nil => rfl
  | cons link rest =>
    rw [splitAtWeakest] at hsplit
    split at hsplit
    case h_1 => split at hsplit <;> cases hsplit
    case h_2 => cases hsplit

/-- A sequence is split at a link that none before it is weaker than and that all behind it
are stronger than. -/
theorem priority_of_splitAtWeakest {links before behind : List Link} {weakest : Link}
    (hsplit : splitAtWeakest links = some (before, weakest, behind)) :
    (∀ link ∈ before, weakest.priority ≤ link.priority) ∧
      ∀ link ∈ behind, weakest.priority < link.priority := by
  induction links generalizing before weakest behind with
  | nil => cases hsplit
  | cons link rest ih =>
    rw [splitAtWeakest] at hsplit
    split at hsplit
    case h_1 before' weakest' behind' hrest =>
      obtain ⟨hbefore, hbehind⟩ := ih hrest
      split at hsplit
      case isTrue hle =>
        obtain ⟨rfl, rfl, rfl⟩ := by simpa using hsplit
        exact ⟨List.forall_mem_cons.mpr ⟨hle, hbefore⟩, hbehind⟩
      case isFalse hlt =>
        -- The first link is weaker than the weakest one of the rest.
        obtain ⟨rfl, rfl, rfl⟩ := by simpa using hsplit
        refine ⟨by simp, ?_⟩
        intro other hother
        rw [append_of_splitAtWeakest hrest] at hother
        rcases List.mem_append.mp hother with hother | hother
        · have hle := hbefore other hother
          omega
        · rcases List.mem_cons.mp hother with rfl | hother
          · omega
          · have hlt' := hbehind other hother
            omega
    case h_2 hrest =>
      obtain ⟨rfl, rfl, rfl⟩ := by simpa using hsplit
      obtain rfl := eq_nil_of_splitAtWeakest hrest
      exact ⟨by simp, by simp⟩

end Link

namespace Chain

/-- All waiting junctions bind at least as tightly as the floor. -/
def Above (floor : Nat) (pending : List Pending) : Prop :=
  ∀ entry ∈ pending, floor ≤ entry.priority

@[simp] theorem above_nil (floor : Nat) : Above floor [] := by simp [Above]

@[simp] theorem above_cons {floor : Nat} {top : Pending} {rest : List Pending} :
    Above floor (top :: rest) ↔ floor ≤ top.priority ∧ Above floor rest := by
  simp [Above]

/-- What goes on waiting has been waiting before. -/
theorem Above.reduce {floor : Nat} {pending : List Pending} (habove : Above floor pending)
    (other : Nat) (operand : Query) : Above floor (Chain.reduce other pending operand).2 :=
  fun entry hentry => habove entry ((reduce_suffix other pending operand).subset hentry)

/-- Junctions above the floor are folded as at the end of the text. -/
theorem reduce_of_above {floor : Nat} {pending : List Pending} (habove : Above floor pending)
    (operand : Query) : reduce floor pending operand = ((reduce 0 pending operand).1, []) := by
  induction pending generalizing operand with
  | nil => rfl
  | cons top rest ih =>
    obtain ⟨htop, hrest⟩ := above_cons.mp habove
    rw [reduce_cons_of_le htop, reduce_cons_of_le (Nat.zero_le _)]
    exact ih hrest _

/-- Junctions below the floor are left alone, whatever is folded on top of them. -/
theorem reduce_append_of_below {floor : Nat} {outer : List Pending} (hbelow : Below floor outer)
    (pending : List Pending) (operand : Query) :
    reduce floor (pending ++ outer) operand =
      ((reduce floor pending operand).1, (reduce floor pending operand).2 ++ outer) := by
  induction pending generalizing operand with
  | nil => exact reduce_of_below hbelow operand
  | cons top rest ih =>
    rw [List.cons_append]
    by_cases htop : floor ≤ top.priority
    · rw [reduce_cons_of_le htop, reduce_cons_of_le htop]
      exact ih _
    · have hlt := Nat.lt_of_not_le htop
      rw [reduce_cons_of_lt hlt, reduce_cons_of_lt hlt, List.cons_append]

/-- At the end of the text what waits on top is folded first. -/
theorem reduce_zero_append (pending outer : List Pending) (operand : Query) :
    reduce 0 (pending ++ outer) operand = reduce 0 outer (reduce 0 pending operand).1 := by
  induction pending generalizing operand with
  | nil => rfl
  | cons top rest ih =>
    have hzero : 0 ≤ top.priority := Nat.zero_le _
    rw [List.cons_append, reduce_cons_of_le hzero, reduce_cons_of_le hzero]
    exact ih _

/-- A junction that binds looser than all of the sequence waits below them until the end, and
then joins its left side with what they amount to without it. -/
theorem joinAll_of_bottom {chain inner : Chain} {bottom : Pending} {links : List Link}
    (hpending : chain.pending = inner.pending ++ [bottom])
    (hlinks : ∀ link ∈ links, bottom.priority < link.priority) (first : Query) :
    chain.joinAll first links =
      .joined bottom.junction bottom.left (inner.joinAll first links) := by
  induction links generalizing chain inner first with
  | nil =>
    rw [joinAll, joinAll, complete, complete, hpending, reduce_zero_append]
    rfl
  | cons link rest ih =>
    obtain ⟨hlink, hrest⟩ := List.forall_mem_cons.mp hlinks
    have hbelow : Below link.priority [bottom] := below_cons.mpr ⟨hlink, below_nil _⟩
    rw [joinAll, joinAll]
    apply ih _ hrest
    have hreduce := reduce_append_of_below hbelow inner.pending first
    rw [← hpending] at hreduce
    rw [pending_push hreduce, pending_push rfl, List.cons_append]

/-- When a junction comes that binds no tighter than any before it, all of them are folded into
its left side. -/
theorem exists_joinAll_append_cons {chain : Chain} {before : List Link} {link : Link}
    (habove : Above link.priority chain.pending)
    (hbefore : ∀ other ∈ before, link.priority ≤ other.priority) (first : Query)
    (behind : List Link) :
    ∃ next : Chain,
      next.pending = [⟨chain.joinAll first before, link.junction, link.priority⟩] ∧
        chain.joinAll first (before ++ link :: behind) = next.joinAll link.operand behind := by
  induction before generalizing chain first with
  | nil =>
    refine ⟨chain.push first link.junction link.priority, ?_, rfl⟩
    exact pending_push (reduce_of_above habove first) link.junction
  | cons other rest ih =>
    obtain ⟨hother, hrest⟩ := List.forall_mem_cons.mp hbefore
    have habove' : Above link.priority
        (chain.push first other.junction other.priority).pending := by
      rw [pending_push rfl]
      exact above_cons.mpr ⟨hother, habove.reduce _ _⟩
    exact ih habove' hrest other.operand

/-- A sequence is split where it is grouped all at once. -/
theorem joinAll_append_cons {before behind : List Link} {weakest : Link}
    (hbefore : ∀ link ∈ before, weakest.priority ≤ link.priority)
    (hbehind : ∀ link ∈ behind, weakest.priority < link.priority) (first : Query) :
    empty.joinAll first (before ++ weakest :: behind) =
      .joined weakest.junction (empty.joinAll first before)
        (empty.joinAll weakest.operand behind) := by
  have habove : Above weakest.priority empty.pending := above_nil weakest.priority
  obtain ⟨next, hpending, hjoin⟩ := exists_joinAll_append_cons habove hbefore first behind
  have hbottom : next.pending = empty.pending ++
      [⟨empty.joinAll first before, weakest.junction, weakest.priority⟩] := hpending
  rw [hjoin, joinAll_of_bottom hbottom hbehind]

/-- A sequence whose junctions wait one after the other is grouped at the last of its loosest
junctions, and so are both sides. -/
theorem joinAll_eq_group (first : Query) (links : List Link) :
    empty.joinAll first links = Link.group first links := by
  fun_induction Link.group first links with
  | case1 first links hsplit =>
    obtain rfl := Link.eq_nil_of_splitAtWeakest hsplit
    rfl
  | case2 first links before weakest behind hsplit ihbefore ihbehind =>
    obtain ⟨hbefore, hbehind⟩ := Link.priority_of_splitAtWeakest hsplit
    rw [Link.append_of_splitAtWeakest hsplit, joinAll_append_cons hbefore hbehind, ihbefore,
      ihbehind]

/-- A sequence is joined in the same way if all of its junctions can be counted. -/
theorem joinAll?_eq {chain : Chain} {links : List Link}
    (hroom : chain.joined + links.length < 2 ^ 64) (first : Query) :
    chain.joinAll? first links = some (chain.joinAll first links) := by
  induction links generalizing chain first with
  | nil => rfl
  | cons link rest ih =>
    rw [List.length_cons] at hroom
    have hcount : chain.joined + 1 < 2 ^ 64 := by omega
    rw [joinAll?, push?_eq hcount, Option.bind_some, joinAll]
    apply ih
    rw [joined_push]
    omega

/-- As long as they can be counted, the junctions of a sequence are all taken by an empty chain,
and the sequence is grouped as it is all at once: the last of its loosest junctions joins the
query of what stands before it with the query of what stands behind it. -/
theorem joinAll?_eq_group {links : List Link} (hlength : links.length < 2 ^ 64) (first : Query) :
    empty.joinAll? first links = some (empty.joinAll first links) ∧
      empty.joinAll first links = Link.group first links := by
  have hroom : empty.joined + links.length < 2 ^ 64 := by
    rwa [show empty.joined = 0 from rfl, Nat.zero_add]
  exact ⟨joinAll?_eq hroom first, joinAll_eq_group first links⟩

/-- Two junctions tie for the loosest, and the later of them joins the whole sequence, though
tighter ones stand before and between them. -/
theorem joinAll?_eq_group_ties :
    [Link.mk .and 8 .allResults, Link.mk .or 1 (.relational "b" (.existence true)),
      Link.mk .and 2 .allResults, Link.mk .or 1 (.relational "c" (.existence true))].length <
        2 ^ 64 ∧
      Link.group (.relational "a" (.existence true))
        [Link.mk .and 8 .allResults, Link.mk .or 1 (.relational "b" (.existence true)),
          Link.mk .and 2 .allResults, Link.mk .or 1 (.relational "c" (.existence true))] =
        .joined .or
          (.joined .or (.joined .and (.relational "a" (.existence true)) .allResults)
            (.joined .and (.relational "b" (.existence true)) .allResults))
          (.relational "c" (.existence true)) := by
  refine ⟨by decide, ?_⟩
  rw [← (joinAll?_eq_group (by decide) _).2]
  rfl

end Chain

end SearchCriteria
