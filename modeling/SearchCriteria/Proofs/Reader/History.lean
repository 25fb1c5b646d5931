import SearchCriteria.Proofs.Reader.ClauseText
import SearchCriteria.Proofs.Reader.Lead
import SearchCriteria.Proofs.Reader.Move

/-!
# What a reader has read

The text that has been read can be told from the state, but for redundant parentheses
and the choice of separators. Behind an expression the chain may still hold junctions of
groups that are closed, which every later junction and the end of the text fold alike.
-/

namespace SearchCriteria.Reader

open Grammar

variable {limits : Limits}

/-- `Placed limits first pending before outline operand scope`: an expression or a group
stands behind the text, and the operand and its chain amount to it on top of the waiting
junctions. -/
structure Placed (limits : Limits) (first : Bool) (pending : List Pending) (before : List Char)
    (outline : Outline) (operand : Query) (scope : Scope) : Prop where
  lead : Lead limits first scope.depth pending before
  fits : outline.Fits .term first
  depth_le : scope.depth + outline.depth ≤ limits.maxNestingDepth
  reduce_eq : ∀ low ≤ Level.term.floor scope.depth,
    Chain.reduce low scope.chain.pending operand = Chain.reduce low pending outline.query

/-- What the state tells of the text that has been read. -/
def State.Reads (limits : Limits) (text : List Char) : State → Prop
  | start depth => Lead limits true depth [] text
  | wildcard => Wildcard text
  | inClause clause scope =>
    ∃ first before rest, Lead limits first scope.depth scope.chain.pending before ∧
      clause.Reads first rest ∧ text = before ++ rest
  | afterOperand operand scope =>
    ∃ first pending before outline blank, Placed limits first pending before outline operand scope ∧
      Blank blank ∧ (outline.closed = false → blank ≠ []) ∧ text = before ++ outline.text ++ blank
  | inJunction junction matched scope =>
    ∃ before, (∀ gap, Gap gap → Lead limits false scope.depth scope.chain.pending
        (before ++ junction.keyword.toList ++ gap)) ∧
      text = before ++ junction.keyword.toList.take matched
  | afterJunction _ scope => Lead limits false scope.depth scope.chain.pending text

namespace Placed

variable {first : Bool} {pending : List Pending} {before : List Char} {outline : Outline}
  {operand : Query} {scope : Scope}

/-- An expression that has just been read is the operand itself. -/
theorem of_expresses {closed : Bool} {text : List Char}
    (hlead : Lead limits first scope.depth scope.chain.pending before)
    (hexpresses : Clause.Expresses first closed text operand) :
    ∃ outline, Placed limits first scope.chain.pending before outline operand scope ∧
      outline.closed = closed ∧ outline.text = text := by
  obtain ⟨property, gap, relation, gap', hfits, hclosed, htext, rfl⟩ := hexpresses
  exact ⟨.expression property gap relation gap', ⟨hlead, hfits, hlead.depth_le, fun _ _ => rfl⟩,
    hclosed, htext⟩

/-- The phrase of a level that ends with the operand, and what waits below it. -/
theorem fold (hplaced : Placed limits first pending before outline operand scope)
    (level : Level) :
    ∃ first' pending' before' outline',
      Stands limits first' scope.depth pending' before' level outline' ∧
        outline'.closed = outline.closed ∧ before' ++ outline'.text = before ++ outline.text ∧
        Chain.reduce (level.floor scope.depth) scope.chain.pending operand =
          (outline'.query, pending') := by
  have hle := level.floor_le_term scope.depth
  have hstands : Stands limits first scope.depth pending before .term outline :=
    ⟨hplaced.lead, hplaced.fits, hplaced.depth_le, hplaced.lead.below_term⟩
  obtain ⟨first', pending', before', outline', hfold, hclosed, htext, hreduce⟩ :=
    hstands.fold hle
  exact ⟨first', pending', before', outline', hfold, hclosed, htext,
    (hplaced.reduce_eq _ hle).trans hreduce⟩

/-- A closed group is an operand one parenthesis further out. -/
theorem close {chain : Chain} {depth : Nat} {blank : List Char}
    (hplaced : Placed limits first pending before outline operand ⟨chain, depth + 1⟩)
    (hblank : Blank blank) :
    ∃ first' pending' before' outline',
      Placed limits first' pending' before' outline' operand ⟨chain, depth⟩ ∧
        outline'.closed = true ∧
        before' ++ outline'.text = before ++ outline.text ++ blank ++ [')'] := by
  obtain ⟨first', pending', before', inner, hstands, -, htext, hreduce⟩ :=
    hplaced.fold .disjunction
  have hfloor := Level.floor_disjunction_succ depth
  obtain ⟨hlead, hfits, hdepth, hbelow⟩ := hstands
  rcases hlead.opened_or_blank hbelow with ⟨hzero, -⟩ |
    ⟨outer, blank', depth', hsucc, houter, hblank', rfl⟩
  · cases hzero
  · obtain rfl := Nat.succ.inj hsucc
    refine ⟨first', pending', outer, .group blank' inner blank,
      ⟨houter, ⟨hblank', hfits, hblank⟩, ?_, ?_⟩, rfl, ?_⟩
    · simp only [Outline.depth]
      simp only at hdepth
      omega
    · intro low hlow
      simp only [hfloor] at hreduce
      rw [← Chain.reduce_reduce hlow, hreduce]
      rfl
    · rw [← htext, Outline.text]
      simp only [List.append_assoc, List.cons_append]

/-- A junction behind an operand waits with the phrase of its level on its left. -/
theorem junction (hplaced : Placed limits first pending before outline operand scope)
    {blank gap : List Char} (hblank : Blank blank) (hclosed : outline.closed = false → blank ≠ [])
    (junction : Junction) (hgap : Gap gap) :
    Lead limits false scope.depth
      (scope.chain.push operand junction (junction.priority scope.depth)).pending
      (before ++ outline.text ++ blank ++ junction.keyword.toList ++ gap) := by
  obtain ⟨first', pending', before', left, ⟨hlead, hfits, hdepth, hbelow⟩, hclosed', htext,
    hreduce⟩ := hplaced.fold (.ofJunction junction)
  rw [Level.floor_ofJunction] at hreduce hbelow
  rw [Chain.pending_push hreduce, ← htext]
  rw [← hclosed'] at hclosed
  exact .joined hlead hbelow hfits hdepth hblank hclosed hgap

/-- At the end of the text, with no parenthesis open, the chain folds to the query of one
phrase that spans the text. -/
theorem finish (hplaced : Placed limits first pending before outline operand scope)
    {blank : List Char} (hblank : Blank blank) {query : Query}
    (hfinish : scope.finish operand = .ok query) :
    ∃ outline' : Outline, outline'.Spans (before ++ outline.text ++ blank) ∧
      outline'.query = query ∧ outline'.depth ≤ limits.maxNestingDepth := by
  obtain ⟨first', pending', before', outline', ⟨hlead, hfits, hdepth, hbelow⟩, -, htext,
    hreduce⟩ := hplaced.fold .disjunction
  obtain ⟨hzero, rfl⟩ := Scope.finish_eq_ok hfinish
  rcases hlead.opened_or_blank hbelow with ⟨-, rfl, rfl, hbefore⟩ | ⟨_, _, depth, hsucc, -⟩
  · refine ⟨outline', ⟨hfits, before', blank, hbefore, hblank, ?_⟩, ?_, by omega⟩
    · rw [htext]
    · rw [Chain.complete, ← Chain.reduce_reduce (Nat.zero_le _), hreduce]
      rfl
  · rw [hzero] at hsucc
    cases hsucc

end Placed

namespace State

/-- Behind an expression each move keeps what the state tells of the text. The operand may
be touched by the character unless it is the first letter of a keyword. -/
theorem reads_of_moves_afterOperand {first : Bool} {pending : List Pending}
    {before blank : List Char} {outline : Outline} {operand : Query} {scope : Scope} {c : Char}
    {next : State} (hplaced : Placed limits first pending before outline operand scope)
    (hblank : Blank blank)
    (hclosed : outline.closed = false → blank ≠ [] ∨ c ≠ 'a' ∧ c ≠ 'o')
    (hmoves : Moves limits (.afterOperand operand scope) c next) :
    next.Reads limits (before ++ outline.text ++ blank ++ [c]) := by
  cases hmoves with
  | idle hawaits => cases hawaits
  | begin hawaits => cases hawaits
  | idleOperand hc =>
    exact ⟨first, pending, before, outline, blank ++ [c], hplaced, (hblank.gap_concat hc).2,
      by simp, by simp⟩
  | close =>
    obtain ⟨first', pending', before', outline', hplaced', hclosed', htext⟩ :=
      hplaced.close hblank
    refine ⟨first', pending', before', outline', [], hplaced', blank_nil, ?_, ?_⟩
    · rw [hclosed']
      simp
    · rw [htext, List.append_nil]
  | @junction junction _ _ _ hletter hroom =>
    have hkeyword : outline.closed = false → blank ≠ [] := by
      intro hopen
      rcases hclosed hopen with hblank' | ⟨ha, ho⟩
      · exact hblank'
      · cases junction with
        | and => exact absurd (List.cons.inj hletter).1.symm ha
        | or => exact absurd (List.cons.inj hletter).1.symm ho
    refine ⟨before ++ outline.text ++ blank, ?_, by rw [hletter]⟩
    intro gap hgap
    exact hplaced.junction hblank hkeyword junction hgap

/-- Each move keeps what the state tells of the text. -/
theorem Reads.moves {text : List Char} {state next : State} {c : Char}
    (hreads : state.Reads limits text) (hmoves : Moves limits state c next) :
    next.Reads limits (text ++ [c]) := by
  cases hmoves with
  | @idle _ first scope _ hawaits hc =>
    cases hawaits with
    | start depth => exact Lead.concat hreads hc
    | afterJunction junction scope => exact Lead.concat hreads hc
  | wildcard =>
    rcases Lead.opened_or_blank hreads (Chain.below_nil _) with ⟨-, -, -, hblank⟩ |
      ⟨_, _, depth, hdepth, -⟩
    · exact ⟨text, [], hblank, blank_nil, rfl⟩
    · cases hdepth
  | idleWildcard hc =>
    obtain ⟨blank, blank', hblank, hblank', rfl⟩ := hreads
    exact ⟨blank, blank' ++ [c], hblank, (hblank'.gap_concat hc).2, by simp⟩
  | openFirst hroom => exact .opened hreads hroom blank_nil
  | openSide hroom => exact .opened hreads hroom blank_nil
  | @begin _ first scope _ hawaits hproperty =>
    have hclause : (Clause.inProperty (String.singleton c)).Reads first [c] := by
      have hlist : (String.singleton c).toList = [c] := String.toList_singleton c
      rw [← hlist] at hproperty
      exact ⟨hproperty, hlist.symm⟩
    cases hawaits with
    | start depth => exact ⟨true, text, [c], hreads, hclause, rfl⟩
    | afterJunction junction scope => exact ⟨false, text, [c], hreads, hclause, rfl⟩
  | more hclause =>
    obtain ⟨first, before, rest, hlead, hrest, rfl⟩ := hreads
    exact ⟨first, before, rest ++ [c], hlead, hrest.moves hclause, List.append_assoc ..⟩
  | closed hclause =>
    obtain ⟨first, before, rest, hlead, hrest, rfl⟩ := hreads
    obtain ⟨outline, hplaced, hclosed, htext⟩ := Placed.of_expresses hlead (hrest.moves hclause)
    refine ⟨first, _, before, outline, [], hplaced, blank_nil, ?_, ?_⟩
    · simp [hclosed]
    · rw [htext, List.append_nil, List.append_assoc]
  | ended hclause hmoves =>
    obtain ⟨first, before, rest, hlead, hrest, rfl⟩ := hreads
    obtain ⟨hexpresses, hletter⟩ := hrest.moves hclause
    obtain ⟨outline, hplaced, -, rfl⟩ := Placed.of_expresses hlead hexpresses
    have hnext := reads_of_moves_afterOperand hplaced blank_nil (fun _ => .inr hletter) hmoves
    rwa [List.append_nil] at hnext
  | idleOperand hc =>
    obtain ⟨first, pending, before, outline, blank, hplaced, hblank, hclosed, rfl⟩ := hreads
    exact reads_of_moves_afterOperand hplaced hblank (fun hopen => .inl (hclosed hopen))
      (.idleOperand hc)
  | close =>
    obtain ⟨first, pending, before, outline, blank, hplaced, hblank, hclosed, rfl⟩ := hreads
    exact reads_of_moves_afterOperand hplaced hblank (fun hopen => .inl (hclosed hopen)) .close
  | junction hletter hroom =>
    obtain ⟨first, pending, before, outline, blank, hplaced, hblank, hclosed, rfl⟩ := hreads
    exact reads_of_moves_afterOperand hplaced hblank (fun hopen => .inl (hclosed hopen))
      (.junction hletter hroom)
  | letter hnext =>
    obtain ⟨before, hlead, rfl⟩ := hreads
    exact ⟨before, hlead, by rw [take_succ_of_getElem? hnext, List.append_assoc]⟩
  | endKeyword hmatched hc =>
    obtain ⟨before, hlead, rfl⟩ := hreads
    rw [List.take_of_length_le hmatched]
    exact hlead [c] (gap_singleton hc)

/-- What has been read from the start can be told from the state. -/
theorem reads_of_run {text : List Char} {state : State}
    (hrun : (start 0).run limits text = .ok state) : state.Reads limits text := by
  have hstart : (start 0).Reads limits [] := Lead.blank blank_nil
  exact run_induction Reads.moves hstart hrun

/-- At the end of the text, a query without open parentheses is told by an outline that
spans the text, or it is the wildcard. -/
theorem Reads.finish {text : List Char} {state : State} {query : Query}
    (hreads : state.Reads limits text) (hfinish : state.finish = .ok query) :
    (query = .allResults ∧ Wildcard text) ∨
      ∃ outline : Outline, outline.Spans text ∧ outline.query = query ∧
        outline.depth ≤ limits.maxNestingDepth := by
  rcases State.finish_eq_ok hfinish with ⟨rfl, rfl⟩ | ⟨operand, scope, rfl, hscope⟩ |
    ⟨clause, operand, scope, rfl, hclause, hscope⟩
  · exact .inl ⟨rfl, hreads⟩
  · obtain ⟨first, pending, before, outline, blank, hplaced, hblank, -, rfl⟩ := hreads
    exact .inr (hplaced.finish hblank hscope)
  · obtain ⟨first, before, rest, hlead, hrest, rfl⟩ := hreads
    obtain ⟨outline, hplaced, -, rfl⟩ := Placed.of_expresses hlead (hrest.finish hclause)
    have hspans := hplaced.finish blank_nil hscope
    rw [List.append_nil] at hspans
    exact .inr hspans

end State

end SearchCriteria.Reader
