import SearchCriteria.Limits
import SearchCriteria.Proofs.Chain.Folding
import SearchCriteria.Proofs.Grammar.Outline
import SearchCriteria.Proofs.Grammar.Word

/-!
# What stands before an expression

Before an expression stand open parentheses and the left sides of the junctions that
wait for it. The waiting junctions bind tighter and tighter, so folding the chain down to
a floor joins left sides with the expression until a phrase of the wanted level is there.
-/

namespace SearchCriteria.Reader

open Grammar

variable {limits : Limits}

/-- `Lead limits first depth pending text`: the text stands before an expression in this
many parentheses, and these junctions wait for the expression. -/
inductive Lead (limits : Limits) : Bool → Nat → List Pending → List Char → Prop where
  /-- Only separators stand before the expression. -/
  | blank {blank : List Char} (hblank : Blank blank) : Lead limits true 0 [] blank
  /-- A parenthesis has been opened for which there was room. -/
  | opened {first : Bool} {depth : Nat} {pending : List Pending} {text blank : List Char}
      (hlead : Lead limits first depth pending text) (hroom : depth < limits.maxNestingDepth)
      (hblank : Blank blank) :
      Lead limits first (depth + 1) pending (text ++ '(' :: blank)
  /-- A junction waits that binds tighter than all before it. -/
  | joined {first : Bool} {depth : Nat} {pending : List Pending} {text : List Char}
      {junction : Junction} {left : Outline} {blank gap : List Char}
      (hlead : Lead limits first depth pending text)
      (hbelow : Chain.Below (junction.priority depth) pending)
      (hfits : left.Fits (.ofJunction junction) first)
      (hdepth : depth + left.depth ≤ limits.maxNestingDepth) (hblank : Blank blank)
      (hclosed : left.closed = false → blank ≠ []) (hgap : Gap gap) :
      Lead limits false depth (⟨left.query, junction, junction.priority depth⟩ :: pending)
        (text ++ left.text ++ blank ++ junction.keyword.toList ++ gap)

namespace Lead

/-- One more separator before the expression changes nothing. -/
theorem concat {first : Bool} {depth : Nat} {pending : List Pending} {text : List Char} {c : Char}
    (hlead : Lead limits first depth pending text) (hc : isSeparator c = true) :
    Lead limits first depth pending (text ++ [c]) := by
  cases hlead with
  | blank hblank => exact .blank (hblank.gap_concat hc).2
  | opened hlead hroom hblank =>
    rw [List.append_assoc]
    exact .opened hlead hroom (hblank.gap_concat hc).2
  | joined hlead hbelow hfits hdepth hblank hclosed hgap =>
    rw [List.append_assoc]
    exact .joined hlead hbelow hfits hdepth hblank hclosed (hgap.2.gap_concat hc)

/-- What stands before an expression is empty or ends with a separator or a parenthesis. -/
theorem eq_nil_or_ends {first : Bool} {depth : Nat} {pending : List Pending} {text : List Char}
    (hlead : Lead limits first depth pending text) :
    text = [] ∨ ∃ c, [c] <:+ text ∧ (isSeparator c = true ∨ c = '(') := by
  cases hlead with
  | blank hblank =>
    rcases hblank.eq_nil_or_ends with hnil | ⟨c, hends, hc⟩
    · exact .inl hnil
    · exact .inr ⟨c, hends, .inl hc⟩
  | opened _ _ hblank =>
    rcases hblank.eq_nil_or_ends with rfl | ⟨c, hends, hc⟩
    · exact .inr ⟨'(', List.suffix_append _ _, .inr rfl⟩
    · refine .inr ⟨c, ?_, .inl hc⟩
      exact hends.trans ((List.suffix_cons _ _).trans (List.suffix_append _ _))
  | joined _ _ _ _ _ _ hgap =>
    rcases hgap.2.eq_nil_or_ends with hnil | ⟨c, hends, hc⟩
    · exact absurd hnil hgap.1
    · exact .inr ⟨c, hends.trans (List.suffix_append _ _), .inl hc⟩

/-- What waits binds looser than anything inside of a group at this place. -/
theorem below_term {first : Bool} {depth : Nat} {pending : List Pending} {text : List Char}
    (hlead : Lead limits first depth pending text) :
    Chain.Below (Level.term.floor depth) pending := by
  induction hlead with
  | blank => exact Chain.below_nil _
  | @opened first depth pending text blank hlead hroom hblank ih =>
    apply ih.mono
    simp only [Level.floor]
    omega
  | @joined first depth pending text junction left blank gap hlead hbelow =>
    have hlt : junction.priority depth < Level.term.floor depth :=
      Nat.lt_of_lt_of_le (Level.priority_lt_floor_rightOf junction depth)
        (Level.floor_le_term _ depth)
    exact Chain.below_cons.mpr ⟨hlt, hbelow.mono (Nat.le_of_lt hlt)⟩

/-- There was room for all open parentheses. -/
theorem depth_le {first : Bool} {depth : Nat} {pending : List Pending} {text : List Char}
    (hlead : Lead limits first depth pending text) : depth ≤ limits.maxNestingDepth := by
  induction hlead with
  | blank => exact Nat.zero_le _
  | opened _ hroom => exact hroom
  | joined _ _ _ _ _ _ _ ih => exact ih

/-- Where no junction waits at this depth, a parenthesis was opened last, or nothing has
been read at all. -/
theorem opened_or_blank {first : Bool} {depth : Nat} {pending : List Pending} {text : List Char}
    (hlead : Lead limits first depth pending text)
    (hbelow : Chain.Below (Level.disjunction.floor depth) pending) :
    (depth = 0 ∧ first = true ∧ pending = [] ∧ Blank text) ∨
      ∃ outer blank depth', depth = depth' + 1 ∧ Lead limits first depth' pending outer ∧
        Blank blank ∧ text = outer ++ '(' :: blank := by
  cases hlead with
  | blank hblank => exact .inl ⟨rfl, rfl, rfl, hblank⟩
  | opened hlead hroom hblank => exact .inr ⟨_, _, _, rfl, hlead, hblank, rfl⟩
  | @joined first depth pending text junction left blank gap =>
    have hlt := (Chain.below_cons.mp hbelow).1
    have hle := (Level.disjunction_floor_le (.ofJunction junction) depth)
    rw [Level.floor_ofJunction] at hle
    exact absurd hlt (Nat.not_lt_of_le hle)

end Lead

/-- `Stands limits first depth pending before level outline`: a phrase of the level stands
behind the text, and all that waits there binds looser than the junctions of the level. -/
structure Stands (limits : Limits) (first : Bool) (depth : Nat) (pending : List Pending)
    (before : List Char) (level : Level) (outline : Outline) : Prop where
  lead : Lead limits first depth pending before
  fits : outline.Fits level first
  depth_le : depth + outline.depth ≤ limits.maxNestingDepth
  below : Chain.Below (level.floor depth) pending

/-- Folding the chain down to the floor of a wider level joins the waiting left sides with
the phrase, and leaves a phrase of the wider level. -/
theorem Stands.fold {first : Bool} {depth : Nat} {pending : List Pending} {before : List Char}
    {level : Level} {outline : Outline}
    (hstands : Stands limits first depth pending before level outline) {wider : Level}
    (hle : wider.floor depth ≤ level.floor depth) :
    ∃ first' pending' before' outline',
      Stands limits first' depth pending' before' wider outline' ∧
        outline'.closed = outline.closed ∧ before' ++ outline'.text = before ++ outline.text ∧
        Chain.reduce (wider.floor depth) pending outline.query = (outline'.query, pending') := by
  obtain ⟨hlead, hfits, hdepth, hbelow⟩ := hstands
  induction hlead generalizing level outline with
  | @blank blank hblank =>
    exact ⟨true, [], blank, outline,
      ⟨.blank hblank, hfits.of_floor_le hle, hdepth, Chain.below_nil _⟩, rfl, rfl, rfl⟩
  | @opened first depth pending text blank hlead hroom hblank =>
    have houter : Chain.Below (wider.floor (depth + 1)) pending := by
      apply hlead.below_term.mono
      rw [← Level.floor_disjunction_succ]
      exact wider.disjunction_floor_le (depth + 1)
    exact ⟨first, pending, text ++ '(' :: blank, outline,
      ⟨.opened hlead hroom hblank, hfits.of_floor_le hle, hdepth, houter⟩, rfl, rfl,
      Chain.reduce_of_below houter _⟩
  | @joined first depth pending text junction left blank gap hlead hbelow' hleft hdepth' hblank
      hclosed hgap ih =>
    by_cases hstop : junction.priority depth < wider.floor depth
    · -- The junction binds looser than the wider level and goes on waiting.
      have hwaits : Chain.Below (wider.floor depth)
          (⟨left.query, junction, junction.priority depth⟩ :: pending) :=
        Chain.below_cons.mpr ⟨hstop, hbelow'.mono (Nat.le_of_lt hstop)⟩
      exact ⟨false, _, _, outline,
        ⟨.joined hlead hbelow' hleft hdepth' hblank hclosed hgap, hfits.of_floor_le hle, hdepth,
          hwaits⟩, rfl, rfl, Chain.reduce_of_below hwaits _⟩
    · -- The junction takes the phrase as its right side.
      have hfloor : wider.floor depth ≤ junction.priority depth := Nat.le_of_not_lt hstop
      have hright : outline.Fits (.rightOf junction) false :=
        hfits.of_floor_le (Level.floor_rightOf_le (Chain.below_cons.mp hbelow).1)
      have hjoined : (Outline.joined junction left blank gap outline).Fits
          (.ofJunction junction) first :=
        ⟨Level.admits_ofJunction junction, hleft, hblank, hclosed, hgap, hright⟩
      have hroom : depth + (Outline.joined junction left blank gap outline).depth ≤
          limits.maxNestingDepth := by
        simp only [Outline.depth]
        omega
      rw [← Level.floor_ofJunction] at hfloor hbelow'
      obtain ⟨first', pending', before', outline', hstands, hclosed', htext, hreduce⟩ :=
        ih hfloor hjoined hroom hbelow'
      rw [Level.floor_ofJunction] at hfloor
      refine ⟨first', pending', before', outline', hstands, hclosed', ?_, ?_⟩
      · rw [htext, Outline.text]
        simp only [List.append_assoc]
      · rw [Chain.reduce_cons_of_le hfloor]
        exact hreduce

end SearchCriteria.Reader
