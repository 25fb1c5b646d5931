import SearchCriteria.Proofs.Reader.Growth

/-!
# Reading within limits

A reader looks at its limits only where a parenthesis opens and where a junction begins. As
long as it stays within them it does what a reader with more room does, and the character
that leads out of them is refused for the limit that it exceeds.
-/

namespace SearchCriteria.Reader

namespace State

variable {limits wide : Limits}

/-- `state.Exceeds limits cause`: there is more in the state than the limits admit, and the
cause tells of what. -/
inductive Exceeds (limits : Limits) (state : State) : ParseError → Prop where
  /-- More parentheses are open. -/
  | nesting (hdepth : limits.maxNestingDepth < state.depth) :
      Exceeds limits state (.nestingTooDeep limits.maxNestingDepth)
  /-- A junction has begun for whose right side there is no room. -/
  | terms (hjoined : max 1 limits.maxTerms ≤ state.joined) :
      Exceeds limits state (.tooManyTerms limits.maxTerms)

/-- The limits admit what is in the state. -/
structure Within (limits : Limits) (state : State) : Prop where
  depth_le : state.depth ≤ limits.maxNestingDepth
  joined_lt : state.joined < max 1 limits.maxTerms

/-- Whatever character follows, the limits will not be what refuses it. -/
structure HasRoom (limits : Limits) (state : State) : Prop where
  depth_lt : state.depth < limits.maxNestingDepth
  joined_lt : state.joined + 1 < limits.maxTerms

/-- The state, unless it exceeds the limits. -/
def check (limits : Limits) (state : State) : Except ParseError State :=
  if limits.maxNestingDepth < state.depth then .error (.nestingTooDeep limits.maxNestingDepth)
  else if max 1 limits.maxTerms ≤ state.joined then .error (.tooManyTerms limits.maxTerms)
  else .ok state

/-- A state that exceeds the limits in no way is within them. -/
theorem within_of_not_exceeds {state : State} (hnone : ∀ cause, ¬ state.Exceeds limits cause) :
    state.Within limits := by
  constructor
  · exact Nat.le_of_not_lt fun hdepth => hnone _ (.nesting hdepth)
  · exact Nat.lt_of_not_le fun hjoined => hnone _ (.terms hjoined)

/-- A state within the limits exceeds them in no way. -/
theorem Within.not_exceeds {state : State} (hwithin : state.Within limits) (cause : ParseError) :
    ¬ state.Exceeds limits cause := by
  intro hexceeds
  cases hexceeds with
  | nesting hdepth => exact Nat.not_lt_of_le hwithin.depth_le hdepth
  | terms hjoined => exact Nat.not_le_of_lt hwithin.joined_lt hjoined

/-- A state within the limits passes the check. -/
theorem Within.check {state : State} (hwithin : state.Within limits) :
    state.check limits = .ok state := by
  rw [State.check, if_neg (Nat.not_lt_of_le hwithin.depth_le),
    if_neg (Nat.not_le_of_lt hwithin.joined_lt)]

/-- What passes the check is within the limits. -/
theorem within_of_check {state next : State} (hcheck : state.check limits = .ok next) :
    state = next ∧ state.Within limits := by
  unfold State.check at hcheck
  split at hcheck
  case isTrue => cases hcheck
  case isFalse hdepth =>
    split at hcheck
    case isTrue => cases hcheck
    case isFalse hjoined =>
      exact ⟨Except.ok.inj hcheck, Nat.le_of_not_lt hdepth, Nat.lt_of_not_le hjoined⟩

/-- Whether a state is within limits rests on its counts alone. -/
theorem Within.of_eq {state next : State} (hwithin : state.Within limits)
    (hdepth : next.depth = state.depth) (hjoined : next.joined = state.joined) :
    next.Within limits :=
  ⟨hdepth ▸ hwithin.depth_le, hjoined ▸ hwithin.joined_lt⟩

/-- The state before the first character is within all limits. -/
theorem within_start (limits : Limits) : (start 0).Within limits :=
  ⟨Nat.zero_le _, Nat.lt_of_lt_of_le Nat.one_pos (Nat.le_max_left 1 _)⟩

/-- A move from within the limits exceeds them in one way at most, and the check tells which. -/
theorem check_of_exceeds {state next : State} {c : Char} {cause : ParseError}
    (hwithin : state.Within limits) (hmoves : Moves wide state c next)
    (hexceeds : next.Exceeds limits cause) : next.check limits = .error cause := by
  obtain ⟨hdepth, hjoined⟩ := hwithin
  have hgrowth := hmoves.growth
  cases hexceeds with
  | nesting hnext => rw [check, if_pos hnext]
  | terms hnext =>
    have hshallow : ¬ limits.maxNestingDepth < next.depth := by omega
    rw [check, if_neg hshallow, if_pos hnext]

end State

variable {limits wide : Limits}

/-- Where a parenthesis opens the limits only cut. -/
theorem openParenthesis_eq_check {depth : Nat} {opened : Nat → State}
    (hdepth : (opened (depth + 1)).depth = depth + 1)
    (hjoined : (opened (depth + 1)).joined < max 1 limits.maxTerms)
    (hroom : depth < wide.maxNestingDepth) :
    (openParenthesis limits depth >>= fun depth => pure (opened depth)) =
      (openParenthesis wide depth >>= fun depth => pure (opened depth)).bind
        (State.check limits) := by
  have hadmitted : (openParenthesis wide depth >>= fun depth => pure (opened depth)) =
      .ok (opened (depth + 1)) := by
    rw [openParenthesis, if_neg (Nat.not_le_of_lt hroom)]
    rfl
  rw [hadmitted]
  by_cases hfull : limits.maxNestingDepth ≤ depth
  · have hdeep : limits.maxNestingDepth < (opened (depth + 1)).depth := by omega
    have hcheck : (opened (depth + 1)).check limits =
        .error (.nestingTooDeep limits.maxNestingDepth) := by
      rw [State.check, if_pos hdeep]
    rw [openParenthesis, if_pos hfull]
    exact hcheck.symm
  · have hwithin : (opened (depth + 1)).Within limits := ⟨by omega, hjoined⟩
    rw [openParenthesis, if_neg hfull]
    exact hwithin.check.symm

/-- Before the first expression the limits only cut. -/
theorem stepStart_eq_check {depth : Nat} (hwithin : (State.start depth).Within limits)
    (hroom : (State.start depth).HasRoom wide) (c : Char) :
    stepStart limits depth c = (stepStart wide depth c).bind (State.check limits) := by
  unfold stepStart
  split
  case isTrue => exact hwithin.check.symm
  case isFalse =>
    split
    case isTrue =>
      split
      case isTrue hdepth =>
        have hwildcard : State.wildcard.Within limits := hwithin.of_eq hdepth.symm rfl
        exact hwildcard.check.symm
      case isFalse => rfl
    case isFalse =>
      split
      case isTrue =>
        rw [map_eq_pure_bind, map_eq_pure_bind]
        exact openParenthesis_eq_check rfl hwithin.joined_lt hroom.depth_lt
      case isFalse =>
        split
        case isTrue => split <;> rfl
        case isFalse =>
          have hclause : (State.inClause (.inProperty (String.singleton c))
              ⟨Chain.empty, depth⟩).Within limits := hwithin.of_eq rfl rfl
          exact hclause.check.symm

/-- Behind a junction the limits only cut. -/
theorem stepAfterJunction_eq_check {junction : Junction} {scope : Scope}
    (hwithin : (State.afterJunction junction scope).Within limits)
    (hroom : (State.afterJunction junction scope).HasRoom wide) (c : Char) :
    stepAfterJunction limits junction scope c =
      (stepAfterJunction wide junction scope c).bind (State.check limits) := by
  unfold stepAfterJunction
  split
  case isTrue => exact hwithin.check.symm
  case isFalse =>
    split
    case isTrue => exact openParenthesis_eq_check rfl hwithin.joined_lt hroom.depth_lt
    case isFalse =>
      split
      case isTrue => rfl
      case isFalse =>
        have hclause : (State.inClause (.inProperty (String.singleton c)) scope).Within limits :=
          hwithin.of_eq rfl rfl
        exact hclause.check.symm

/-- Where a junction begins the limits only cut. -/
theorem beginJunction_eq_check {operand : Query} {scope : Scope} (junction : Junction)
    (hwithin : (State.afterOperand operand scope).Within limits)
    (hroom : (State.afterOperand operand scope).HasRoom wide) :
    beginJunction limits junction operand scope =
      (beginJunction wide junction operand scope).bind (State.check limits) := by
  have hdepth : scope.depth ≤ limits.maxNestingDepth := hwithin.depth_le
  have hadmitted : ¬ wide.maxTerms < scope.chain.joined + 2 := Nat.not_lt_of_le hroom.joined_lt
  have hbegun : ∀ next : State, next.depth = scope.depth → next.joined = scope.chain.joined + 1 →
      next.check limits =
        if limits.maxTerms < scope.chain.joined + 2 then .error (.tooManyTerms limits.maxTerms)
        else .ok next := by
    intro next hnext hjoined
    have hshallow : ¬ limits.maxNestingDepth < next.depth := by omega
    have hcount : max 1 limits.maxTerms ≤ next.joined ↔
        limits.maxTerms < scope.chain.joined + 2 := by omega
    rw [State.check, if_neg hshallow]
    simp only [hcount]
  unfold beginJunction
  rw [if_neg hadmitted]
  exact (hbegun _ rfl rfl).symm

/-- Behind an expression the limits only cut. -/
theorem stepAfterOperand_eq_check {operand : Query} {scope : Scope}
    (hwithin : (State.afterOperand operand scope).Within limits)
    (hroom : (State.afterOperand operand scope).HasRoom wide) (c : Char) :
    stepAfterOperand limits operand scope c =
      (stepAfterOperand wide operand scope c).bind (State.check limits) := by
  unfold stepAfterOperand
  split
  case isTrue => exact hwithin.check.symm
  case isFalse =>
    split
    case isTrue =>
      split
      case isTrue => rfl
      case isFalse =>
        have hclosed : (State.afterOperand operand
            { scope with depth := scope.depth - 1 }).Within limits :=
          ⟨Nat.le_trans (Nat.sub_le _ _) hwithin.depth_le, hwithin.joined_lt⟩
        exact hclosed.check.symm
    case isFalse =>
      split
      case isTrue => exact beginJunction_eq_check .and hwithin hroom
      case isFalse =>
        split
        case isTrue => exact beginJunction_eq_check .or hwithin hroom
        case isFalse => rfl

/-- In every state within the limits the next character has the outcome that it has with more
room, but for what the limits cut. -/
theorem State.step_eq_check {state : State} (hwithin : state.Within limits)
    (hroom : state.HasRoom wide) (c : Char) :
    state.step limits c = (state.step wide c).bind (State.check limits) := by
  cases state with
  | start depth => exact stepStart_eq_check hwithin hroom c
  | wildcard =>
    rw [step, step]
    split
    case isTrue => exact hwithin.check.symm
    case isFalse => rfl
  | inClause clause scope =>
    rw [step, step]
    split
    case h_1 next _ =>
      have hnext : (inClause next scope).Within limits := hwithin.of_eq rfl rfl
      exact hnext.check.symm
    case h_2 operand _ =>
      have hnext : (afterOperand operand scope).Within limits := hwithin.of_eq rfl rfl
      exact hnext.check.symm
    case h_3 operand _ =>
      have hafter : (afterOperand operand scope).Within limits := hwithin.of_eq rfl rfl
      exact stepAfterOperand_eq_check hafter ⟨hroom.depth_lt, hroom.joined_lt⟩ c
    case h_4 => rfl
  | afterOperand operand scope => exact stepAfterOperand_eq_check hwithin hroom c
  | inJunction junction matched scope =>
    rw [step, step]
    split
    case h_1 matched' _ =>
      have hnext : (inJunction junction matched' scope).Within limits := hwithin.of_eq rfl rfl
      exact hnext.check.symm
    case h_2 =>
      have hnext : (afterJunction junction scope).Within limits := hwithin.of_eq rfl rfl
      exact hnext.check.symm
    case h_3 => rfl
  | afterJunction junction scope => exact stepAfterJunction_eq_check hwithin hroom c

/-- Limits that no text as short as this one can use up. -/
structure Spacious (wide : Limits) (text : List Char) : Prop where
  length_le : text.length ≤ wide.maxNestingDepth
  length_lt : text.length < wide.maxTerms

/-- A text that is not yet at its end leaves room for one more character. -/
theorem Spacious.hasRoom {before rest : List Char} {c : Char} {state : State}
    (hspacious : Spacious wide (before ++ c :: rest))
    (hrun : (State.start 0).run wide before = .ok state) : state.HasRoom wide := by
  have hgrowth := State.depth_add_joined_le hrun
  obtain ⟨hdepth, hterms⟩ := hspacious
  rw [List.length_append, List.length_cons] at hdepth hterms
  constructor <;> omega

/-- As long as what has been read stays within the limits, the reading is the one with more
room. -/
theorem State.run_eq_of_within {before text : List Char} {state : State}
    (hspacious : Spacious wide (before ++ text))
    (hbefore : (start 0).run wide before = .ok state)
    (hwithin : ∀ part next, part <+: text → state.run wide part = .ok next →
      next.Within limits) :
    state.run limits text = state.run wide text := by
  induction text generalizing before state with
  | nil => rfl
  | cons c rest ih =>
    have hstate : state.Within limits := hwithin [] state (List.nil_prefix) rfl
    have hcheck := step_eq_check hstate (hspacious.hasRoom hbefore) c
    cases hstep : state.step wide c with
    | error cause =>
      rw [hstep] at hcheck
      have hrefused : state.step limits c = .error cause := hcheck
      rw [run_cons, run_cons, hrefused, hstep]
      rfl
    | ok next =>
      have hnext : next.Within limits := by
        apply hwithin [c] next (List.prefix_append [c] rest)
        rw [run_cons_of_step hstep, run_nil]
      have htaken : state.step limits c = .ok next := by
        rw [hcheck, hstep]
        exact hnext.check
      have hread : (start 0).run wide (before ++ [c]) = .ok next := by
        rw [run_append_of_run hbefore, run_cons_of_step hstep, run_nil]
      rw [run_cons_of_step htaken, run_cons_of_step hstep]
      apply ih _ hread
      · intro part last hpart hlast
        apply hwithin (c :: part) last (List.cons_prefix_cons.mpr ⟨rfl, hpart⟩)
        rw [run_cons_of_step hstep, hlast]
      · rwa [List.append_assoc]

/-- As long as a text stays within the limits, it is read as it is with more room. -/
theorem State.run_start_eq_of_within {text : List Char} (hspacious : Spacious wide text)
    (hwithin : ∀ part next, part <+: text → (start 0).run wide part = .ok next →
      next.Within limits) :
    (start 0).run limits text = (start 0).run wide text := by
  have hall : Spacious wide ([] ++ text) := hspacious
  exact run_eq_of_within hall rfl hwithin

/-- What is read within the limits is read alike with more room, and stays within them. -/
theorem State.run_wide_of_run {before text : List Char} {state last : State}
    (hspacious : Spacious wide (before ++ text))
    (hbefore : (start 0).run wide before = .ok state) (hstate : state.Within limits)
    (hrun : state.run limits text = .ok last) :
    state.run wide text = .ok last ∧ last.Within limits := by
  induction text generalizing before state with
  | nil =>
    obtain rfl := Except.ok.inj hrun
    exact ⟨rfl, hstate⟩
  | cons c rest ih =>
    obtain ⟨next, htaken, hrest⟩ := exists_of_run_cons hrun
    rw [step_eq_check hstate (hspacious.hasRoom hbefore) c] at htaken
    obtain ⟨next', hstep, hcheck⟩ := exists_of_bind_eq_ok htaken
    obtain ⟨rfl, hnext⟩ := within_of_check hcheck
    have hread : (start 0).run wide (before ++ [c]) = .ok next' := by
      rw [run_append_of_run hbefore, run_cons_of_step hstep, run_nil]
    rw [run_cons_of_step hstep]
    apply ih _ hread hnext hrest
    rwa [List.append_assoc]

/-- The first character that leads out of the limits is refused for the limit that it exceeds,
and all before it is read. -/
theorem State.step_eq_error_of_exceeds {before rest : List Char} {c : Char} {state next : State}
    {cause : ParseError} (hspacious : Spacious wide (before ++ c :: rest))
    (hbefore : (start 0).run wide before = .ok state)
    (hwithin : ∀ part next, part <+: before → (start 0).run wide part = .ok next →
      next.Within limits)
    (hstep : state.step wide c = .ok next) (hexceeds : next.Exceeds limits cause) :
    (start 0).run limits before = .ok state ∧ state.step limits c = .error cause := by
  have hshort : Spacious wide before := by
    obtain ⟨hdepth, hterms⟩ := hspacious
    rw [List.length_append] at hdepth hterms
    constructor <;> omega
  have hstate : state.Within limits := hwithin before state (List.prefix_refl before) hbefore
  have hcheck := step_eq_check hstate (hspacious.hasRoom hbefore) c
  constructor
  · rw [run_start_eq_of_within hshort hwithin, hbefore]
  · rw [hcheck, hstep]
    exact check_of_exceeds hstate (moves_of_step hstep) hexceeds

end SearchCriteria.Reader
