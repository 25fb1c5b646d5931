import SearchCriteria.Proofs.Acceptance
import SearchCriteria.Proofs.Reader.Room

/-!
# Where limits cut

Limits change what a text tells only by refusing it, and they refuse it exactly at the first
character behind which more parentheses are open, or more junctions have begun, than they
admit. A text without such a character has the result that it has without limits, be that a
query or another refusal.
-/

namespace SearchCriteria

open Reader

/-- `limits.ExceededBehind text cause`: a reader that no limit stops has taken the text, and
then holds more than the limits admit. -/
def Limits.ExceededBehind (limits : Limits) (text : String) (cause : ParseError) : Prop :=
  ∃ reader, (Reader.new .widest).feed text = .ok reader ∧ reader.state.Exceeds limits cause

/-- `limits.FirstExceeded text part cause`: the part is the shortest one in front of the text
behind which the limits are exceeded. -/
structure Limits.FirstExceeded (limits : Limits) (text part : String) (cause : ParseError) :
    Prop where
  exists_rest : ∃ rest, text = part ++ rest
  exceeded : limits.ExceededBehind part cause
  shortest : ∀ shorter rest, part = shorter ++ rest → rest ≠ "" →
    ∀ other, ¬ limits.ExceededBehind shorter other

variable {limits : Limits} {text part : String} {cause : ParseError}

namespace Limits

/-- A state that no limit has kept from being reached is within the limits, unless they are
exceeded behind the text that leads to it. -/
theorem within_of_not_exceededBehind {part : List Char} {state : State}
    (hrun : (State.start 0).run .widest part = .ok state)
    (hnone : ∀ cause, ¬ limits.ExceededBehind (String.ofList part) cause) :
    state.Within limits := by
  apply State.within_of_not_exceeds
  intro cause hexceeds
  exact hnone cause ⟨⟨.widest, state⟩, feed_of_run hrun, hexceeds⟩

/-- Behind a text that exceeds the limits a state has been read that exceeds them. -/
theorem ExceededBehind.exists_run (hexceeded : limits.ExceededBehind text cause) :
    ∃ state, (State.start 0).run .widest text.toList = .ok state ∧ state.Exceeds limits cause := by
  obtain ⟨reader, hfeed, hexceeds⟩ := hexceeded
  obtain ⟨state, hrun, hreader⟩ := exists_of_bind_eq_ok hfeed
  obtain rfl := Except.ok.inj hreader
  exact ⟨state, hrun, hexceeds⟩

/-- If the limits are exceeded behind some part in front of a text, there is a shortest one. -/
theorem ExceededBehind.exists_first (hpart : ∃ rest, text = part ++ rest)
    (hexceeded : limits.ExceededBehind part cause) :
    ∃ part cause, limits.FirstExceeded text part cause := by
  induction hlength : part.length using Nat.strongRecOn generalizing part cause with
  | ind length ih =>
    by_cases hshorter : ∃ shorter rest other, part = shorter ++ rest ∧ rest ≠ "" ∧
        limits.ExceededBehind shorter other
    · obtain ⟨shorter, rest, other, rfl, hrest, hother⟩ := hshorter
      obtain ⟨more, rfl⟩ := hpart
      have hpos : rest.length ≠ 0 := fun hzero => hrest (String.length_eq_zero_iff.mp hzero)
      have hlt : shorter.length < length := by
        rw [← hlength, String.length_append]
        omega
      exact ih _ hlt ⟨rest ++ more, String.append_assoc⟩ hother rfl
    · refine ⟨part, cause, hpart, hexceeded, ?_⟩
      intro shorter rest hsplit hrest other hother
      exact hshorter ⟨shorter, rest, other, hsplit, hrest, hother⟩

/-- The widest limits leave room for every text that is short enough. -/
theorem widest_spacious (hlength : text.length < 2 ^ 62) : Spacious .widest text.toList := by
  rw [← String.length_toList] at hlength
  constructor
  · simp only [widest]
    omega
  · simp only [widest]
    omega

/-- What a reader within the limits has taken does not exceed them. -/
theorem not_exceededBehind_of_run {state : State} (hlength : text.length < 2 ^ 62)
    (hrun : (State.start 0).run limits text.toList = .ok state) (cause : ParseError) :
    ¬ limits.ExceededBehind text cause := by
  intro hexceeded
  obtain ⟨last, hlast, hexceeds⟩ := hexceeded.exists_run
  have hspacious : Spacious .widest ([] ++ text.toList) := widest_spacious hlength
  obtain ⟨hwide, hwithin⟩ :=
    State.run_wide_of_run hspacious rfl (State.within_start limits) hrun
  rw [hwide] at hlast
  obtain rfl := Except.ok.inj hlast
  exact hwithin.not_exceeds cause hexceeds

/-- Where the limits are exceeded behind a character and all before it has been read within
them, they are exceeded there for the first time. -/
theorem ExceededBehind.first_of_run {before : String} {c : Char} {state : State}
    (hlength : text.length < 2 ^ 62) (hpart : ∃ rest, text = before.push c ++ rest)
    (hread : (State.start 0).run limits before.toList = .ok state)
    (hexceeded : limits.ExceededBehind (before.push c) cause) :
    limits.FirstExceeded text (before.push c) cause := by
  refine ⟨hpart, hexceeded, ?_⟩
  intro shorter rest hsplit hrest
  obtain ⟨more, rfl⟩ := hpart
  have hchars : before.toList ++ [c] = shorter.toList ++ rest.toList := by
    rw [← String.toList_push, hsplit, String.toList_append]
  rcases List.eq_nil_or_concat rest.toList with hnil | ⟨behind, d, hbehind⟩
  · exact absurd (String.toList_eq_nil_iff.mp hnil) hrest
  · rw [hbehind, List.concat_eq_append, ← List.append_assoc] at hchars
    obtain ⟨hbefore, -⟩ := List.append_inj' hchars rfl
    rw [hbefore] at hread
    obtain ⟨last, hshorter, -⟩ := State.exists_of_run_append hread
    have hshort : shorter.length < 2 ^ 62 := by
      rw [hsplit, String.length_append, String.length_append] at hlength
      omega
    exact not_exceededBehind_of_run hshort hshorter

/-- Behind the shortest part that exceeds the limits its last character is refused, and all
before it is read. -/
theorem FirstExceeded.exists_step (hlength : text.length < 2 ^ 62)
    (hfirst : limits.FirstExceeded text part cause) :
    ∃ before c state, part = String.ofList (before ++ [c]) ∧
      (State.start 0).run limits before = .ok state ∧ state.step limits c = .error cause := by
  have hspacious := widest_spacious hlength
  obtain ⟨⟨rest, rfl⟩, hexceeded, hshortest⟩ := hfirst
  obtain ⟨next, hrun, hexceeds⟩ := hexceeded.exists_run
  rcases List.eq_nil_or_concat part.toList with hnil | ⟨before, c, hpart⟩
  · -- Nothing has been read, so nothing can exceed the limits.
    rw [hnil] at hrun
    obtain rfl := Except.ok.inj hrun
    exact absurd hexceeds ((State.within_start limits).not_exceeds cause)
  · rw [List.concat_eq_append] at hpart
    rw [hpart] at hrun
    obtain ⟨state, hbefore, hlast⟩ := State.exists_of_run_append hrun
    obtain ⟨next', hstep, hnext⟩ := State.exists_of_run_cons hlast
    obtain rfl := Except.ok.inj hnext
    have hwithin : ∀ shorter next, shorter <+: before →
        (State.start 0).run .widest shorter = .ok next → next.Within limits := by
      rintro shorter next ⟨more, rfl⟩ hshorter
      apply within_of_not_exceededBehind hshorter
      apply hshortest (String.ofList shorter) (String.ofList (more ++ [c]))
      · simp [← String.toList_inj, hpart]
      · simp
    rw [String.toList_append, hpart, List.append_assoc, List.singleton_append] at hspacious
    obtain ⟨hread, hrefused⟩ :=
      State.step_eq_error_of_exceeds hspacious hbefore hwithin hstep hexceeds
    refine ⟨before, c, state, ?_, hread, hrefused⟩
    rw [← hpart, String.ofList_toList]

end Limits

namespace Query

/-- A text behind no part of which the limits are exceeded has the result that it has without
limits. -/
theorem parse_eq_widest_of_not_exceeded (hlength : text.length < 2 ^ 62)
    (hnone : ∀ part cause, ¬ limits.FirstExceeded text part cause) :
    parse limits text = parse .widest text := by
  have hwithin : ∀ part next, part <+: text.toList →
      (State.start 0).run .widest part = .ok next → next.Within limits := by
    rintro part next ⟨rest, hsplit⟩ hrun
    apply Limits.within_of_not_exceededBehind hrun
    intro cause hexceeded
    have hpart : ∃ rest, text = String.ofList part ++ rest :=
      ⟨String.ofList rest, by simp [← String.toList_inj, hsplit]⟩
    obtain ⟨first, cause, hfirst⟩ := hexceeded.exists_first hpart
    exact hnone first cause hfirst
  have hspacious := Limits.widest_spacious hlength
  rw [parse_eq, parse_eq, State.run_start_eq_of_within hspacious hwithin]

/-- The limits change the result of a text only if they are exceeded behind some part in front
of it. Behind the shortest such part they are what refuses the text: its last character is
refused, and all before it is read. -/
theorem parse_cut_at_firstExceeded (limits : Limits) {text : String}
    (hlength : text.length < 2 ^ 62) :
    ((∀ part cause, ¬ limits.FirstExceeded text part cause) →
        parse limits text = parse .widest text) ∧
      ∀ part cause, limits.FirstExceeded text part cause →
        (∃ before c reader, part = before.push c ∧ (Reader.new limits).feed before = .ok reader ∧
          reader.advance c = .error cause) ∧
        parse limits text = .error cause := by
  constructor
  · intro hnone
    exact parse_eq_widest_of_not_exceeded hlength hnone
  · intro part cause hfirst
    obtain ⟨rest, htext⟩ := hfirst.exists_rest
    obtain ⟨before, c, state, rfl, hread, hrefused⟩ := hfirst.exists_step hlength
    constructor
    · have hadvance : (⟨limits, state⟩ : Reader).advance c = .error cause := by
        rw [Reader.advance, hrefused]
        rfl
      exact ⟨String.ofList before, c, ⟨limits, state⟩, by simp, feed_of_run hread, hadvance⟩
    · rw [parse_eq, htext, String.toList_append, String.toList_ofList, List.append_assoc,
        State.run_append_of_run hread, List.singleton_append, State.run_cons, hrefused]
      rfl

/-- The first letter of `or` is one too many where a single expression is admitted; with room
for two, the broken keyword is refused as it is without limits. -/
theorem parse_cut_at_firstExceeded_junction :
    "(a = \"\") o)".length < 2 ^ 62 ∧
      Limits.FirstExceeded ⟨1, 1⟩ "(a = \"\") o)" ("(a = \"\") ".push 'o') (.tooManyTerms 1) ∧
      parse ⟨1, 1⟩ "(a = \"\") o)" = .error (.tooManyTerms 1) ∧
      (∀ part cause, ¬ Limits.FirstExceeded ⟨1, 2⟩ "(a = \"\") o)" part cause) ∧
      parse ⟨1, 2⟩ "(a = \"\") o)" = parse .widest "(a = \"\") o)" := by
  have hlength : "(a = \"\") o)".length < 2 ^ 62 := by decide
  have hread : ∃ state, (State.start 0).run ⟨1, 1⟩ "(a = \"\") ".toList = .ok state := ⟨_, rfl⟩
  obtain ⟨state, hread⟩ := hread
  have hexceeded : Limits.ExceededBehind ⟨1, 1⟩ ("(a = \"\") ".push 'o') (.tooManyTerms 1) :=
    ⟨⟨.widest, _⟩, rfl, .terms (by decide)⟩
  have hfirst : Limits.FirstExceeded ⟨1, 1⟩ "(a = \"\") o)" ("(a = \"\") ".push 'o')
      (.tooManyTerms 1) :=
    Limits.ExceededBehind.first_of_run hlength ⟨")", by decide⟩ hread hexceeded
  have hbroken : parse ⟨1, 2⟩ "(a = \"\") o)" = .error (.unexpectedOperatorBeginning "o)") := rfl
  have hnone : ∀ part cause, ¬ Limits.FirstExceeded ⟨1, 2⟩ "(a = \"\") o)" part cause := by
    intro part cause hpart
    have hrefused := ((parse_cut_at_firstExceeded ⟨1, 2⟩ hlength).2 part cause hpart).2
    obtain ⟨reader, -, hexceeds⟩ := hpart.exceeded
    rw [hbroken] at hrefused
    cases hexceeds <;> cases hrefused
  exact ⟨hlength, hfirst, ((parse_cut_at_firstExceeded ⟨1, 1⟩ hlength).2 _ _ hfirst).2, hnone,
    (parse_cut_at_firstExceeded ⟨1, 2⟩ hlength).1 hnone⟩

end Query

end SearchCriteria
