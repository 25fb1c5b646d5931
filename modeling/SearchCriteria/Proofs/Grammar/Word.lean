import SearchCriteria.Grammar

/-!
# Blanks, gaps and properties

The words of the grammar are read one character at a time, so each of them is told
here by its first character and the rest, and by its last character and what stands
before it.
-/

namespace SearchCriteria.Grammar

@[simp] theorem blank_nil : Blank [] := by simp [Blank]

@[simp] theorem blank_cons {c : Char} {rest : List Char} :
    Blank (c :: rest) ↔ isSeparator c = true ∧ Blank rest := by
  simp [Blank]

@[simp] theorem blank_append {left right : List Char} :
    Blank (left ++ right) ↔ Blank left ∧ Blank right := by
  constructor
  · intro hblank
    exact ⟨fun c hc => hblank c (List.mem_append_left right hc),
      fun c hc => hblank c (List.mem_append_right left hc)⟩
  · rintro ⟨hleft, hright⟩ c hc
    rcases List.mem_append.mp hc with hc | hc
    · exact hleft c hc
    · exact hright c hc

/-- A separator behind a blank makes it a gap. -/
theorem Blank.gap_concat {blank : List Char} (hblank : Blank blank) {c : Char}
    (hc : isSeparator c = true) : Gap (blank ++ [c]) :=
  ⟨by simp, blank_append.mpr ⟨hblank, blank_cons.mpr ⟨hc, blank_nil⟩⟩⟩

/-- A single separator is a gap. -/
theorem gap_singleton {c : Char} (hc : isSeparator c = true) : Gap [c] :=
  blank_nil.gap_concat hc

/-- A separator is none of the characters that are none. -/
theorem ne_of_isSeparator {c d : Char} (hc : isSeparator c = true) (hd : isSeparator d = false) :
    c ≠ d := by
  rintro rfl
  rw [hc] at hd
  cases hd

/-- No separator is a parenthesis or a quote. -/
theorem Blank.plain {blank : List Char} (hblank : Blank blank) :
    ∀ c ∈ blank, c ≠ '(' ∧ c ≠ '"' := by
  intro c hc
  exact ⟨ne_of_isSeparator (hblank c hc) (by decide), ne_of_isSeparator (hblank c hc) (by decide)⟩

/-- A run of separators is empty or ends with one. -/
theorem Blank.eq_nil_or_ends {blank : List Char} (hblank : Blank blank) :
    blank = [] ∨ ∃ c, [c] <:+ blank ∧ isSeparator c = true := by
  rcases List.eq_nil_or_concat blank with rfl | ⟨start, c, rfl⟩
  · exact .inl rfl
  · rw [List.concat_eq_append] at hblank ⊢
    exact .inr ⟨c, List.suffix_append _ _, (blank_cons.mp (blank_append.mp hblank).2).1⟩

/-- No separator is left of a blank. -/
theorem Blank.filter_eq_nil {blank : List Char} (hblank : Blank blank) :
    blank.filter (fun c => !isSeparator c) = [] := by
  rw [List.filter_eq_nil_iff]
  intro c hc
  simp [hblank c hc]

/-- A property goes on with any character that is no separator. -/
theorem Property.concat {first : Bool} {text : List Char} (hproperty : Property first text)
    {c : Char} (hc : isSeparator c = false) : Property first (text ++ [c]) := by
  have hhead : (text ++ [c]).head? = text.head? := by
    cases text with
    | nil => exact absurd rfl hproperty.nonempty
    | cons d rest => rfl
  refine ⟨by simp, ?_, ?_, ?_, ?_⟩
  · intro d hd
    rcases List.mem_append.mp hd with hd | hd
    · exact hproperty.no_separator d hd
    · rwa [List.mem_singleton.mp hd]
  · rw [hhead]
    exact hproperty.no_open
  · rw [hhead]
    exact hproperty.no_close
  · rw [hhead]
    exact hproperty.no_wildcard

/-- A single character is a property if it is none of those that a property does not
begin with. -/
theorem property_singleton {first : Bool} {c : Char} (hword : isSeparator c = false)
    (hopen : c ≠ '(') (hclose : c ≠ ')') (hwildcard : first = true → c ≠ '*') :
    Property first [c] := by
  refine ⟨by simp, ?_, by simpa using hopen, by simpa using hclose, ?_⟩
  · intro d hd
    rwa [List.mem_singleton.mp hd]
  · intro hfirst
    simpa using hwildcard hfirst

end SearchCriteria.Grammar
