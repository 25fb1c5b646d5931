import SearchCriteria.Proofs.Reader.Refusal
import SearchCriteria.Reader.Stop

/-!
# Where reading stops

Reading stops in one place: behind the first character that is refused, or at the end of a text
of which no character is.
-/

namespace SearchCriteria.Reader

variable {limits : Limits} {text before : List Char} {c : Char} {cause : ParseError}

/-- A text in front of one that is read is read as well. -/
theorem Takes.of_begins {shorter : List Char} (htakes : Takes limits text)
    (hshorter : shorter <+: text) : Takes limits shorter := by
  obtain ⟨state, hrun⟩ := htakes
  obtain ⟨rest, rfl⟩ := hshorter
  obtain ⟨next, hnext, -⟩ := State.exists_of_run_append hrun
  exact ⟨next, hnext⟩

/-- No character is refused of a text that is read. -/
theorem Takes.not_stops (htakes : Takes limits text) : ¬ Stops limits text := by
  rintro ⟨cause, herror⟩
  obtain ⟨state, hok⟩ := htakes
  rw [hok] at herror
  cases herror

/-- The reading of a text that is read stops at its end. -/
theorem Takes.stopsBehind (htakes : Takes limits text) : StopsBehind limits text text :=
  ⟨List.prefix_rfl, .inr rfl, fun _ hshorter _ => htakes.of_begins hshorter⟩

/-- The reading of a text stops behind the character that is refused. -/
theorem stopsBehind_of_step {state : State} (hrun : (State.start 0).run limits before = .ok state)
    (hstep : state.step limits c = .error cause) (behind : List Char) :
    StopsBehind limits (before ++ c :: behind) (before ++ [c]) := by
  refine ⟨⟨behind, List.append_assoc ..⟩, .inl ⟨cause, ?_⟩, ?_⟩
  · exact State.run_eq_error_iff.mpr ⟨before, c, [], state, rfl, hrun, hstep⟩
  · intro shorter hshorter hne
    rcases List.prefix_concat_iff.mp hshorter with heq | hbefore
    · exact absurd heq hne
    · exact Takes.of_begins ⟨state, hrun⟩ hbefore

/-- A part behind which reading stops goes on with no other one. -/
theorem StopsBehind.eq_of_begins {part other : List Char} (hpart : StopsBehind limits text part)
    (hother : StopsBehind limits text other) (hbegins : part <+: other) : part = other := by
  by_cases heq : part = other
  · exact heq
  · have htakes := hother.shortest part hbegins heq
    rcases hpart.stops_or_whole with hstops | rfl
    · exact absurd hstops htakes.not_stops
    · exact hbegins.eq_of_length_le hother.begins.length_le

/-- Reading stops in one place. -/
theorem StopsBehind.unique {part other : List Char} (hpart : StopsBehind limits text part)
    (hother : StopsBehind limits text other) : part = other := by
  rcases List.prefix_or_prefix_of_prefix hpart.begins hother.begins with hbegins | hbegins
  · exact hpart.eq_of_begins hother hbegins
  · exact (hother.eq_of_begins hpart hbegins).symm

end SearchCriteria.Reader
