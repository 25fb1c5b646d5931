import SearchCriteria.Proofs.Sql.Reread
import SearchCriteria.Reader

/-!
# Telling queries apart by their SQL

The condition of a query is read back from its tokens alone, whatever follows. So of two
conditions neither can be the beginning of the other one, and what stands behind a condition
need not be SQL at all, if it does not go on with the last word or the last quote.
-/

namespace SearchCriteria

open Sql Lexeme Token

/-- What two parts put together begin with is what the first one begins with. -/
theorem Front.of_append {σ : Type} {required : σ → Prop} {part rest : List σ}
    (hfront : Front required (part ++ rest)) : Front required part := by
  cases part with
  | nil => exact front_nil required
  | cons a more => exact hfront

namespace Sql

/-- Whether a condition ends before the character. -/
def EndsCondition (c : Char) : Prop := c = ' ' ∨ c = ')'
  deriving Decidable

/-- No quote is doubled by what ends a condition. -/
theorem EndsCondition.not_isQuote {c : Char} (hends : EndsCondition c) : ¬ IsQuote c := by
  rcases hends with rfl | rfl <;> decide

/-- What ends a condition also ends the last word of it. -/
theorem EndsCondition.endsWord {c : Char} (hends : EndsCondition c) : EndsWord (.plain c) := by
  rcases hends with rfl | rfl
  · exact .inl rfl
  · exact .inr (.inr (.inl rfl))

/-- The lexemes behind a condition end the last word of it. -/
theorem front_endsWord_of_scanFrom {more : List Char} {lexemes : List Lexeme}
    (hmore : Front EndsCondition more) (hscan : scanFrom .outside more = some lexemes) :
    Front EndsWord lexemes := by
  cases more with
  | nil =>
    obtain rfl := Option.some.inj hscan
    exact front_nil EndsWord
  | cons c rest =>
    have hends : EndsCondition c := front_cons.mp hmore
    rw [scanFrom_cons_plain hends.not_isQuote] at hscan
    obtain ⟨behind, -, rfl⟩ := Option.map_eq_some_iff.mp hscan
    exact front_cons.mpr hends.endsWord

namespace Condition

variable {condition other : Condition}

/-- If the lexemes of a condition begin those of another one, its tokens do so as well. -/
theorem tokens_append_of_lexemes {behind : List Lexeme} (hbehind : Front EndsWord behind)
    (hlexemes : other.lexemes = condition.lexemes ++ behind) :
    ∃ rest, other.tokens = condition.tokens ++ rest := by
  have hother : ofLexemesFrom "" other.lexemes = some other.tokens := by
    rw [other.gives_lexemes.read_eq]
    simp [ofLexemesFrom, ended]
  rw [hlexemes, condition.gives_lexemes behind hbehind] at hother
  obtain ⟨rest, -, htokens⟩ := Option.map_eq_some_iff.mp hother
  exact ⟨rest, htokens.symm⟩

/-- A condition whose tokens begin those of another one is that other one. -/
theorem eq_of_tokens_append {rest : List Token}
    (htokens : other.tokens = condition.tokens ++ rest) : condition = other := by
  have hother := other.readOperand_tokens (Nat.le_max_left other.depth condition.depth) []
  have hcondition :=
    condition.readOperand_tokens (Nat.le_max_right other.depth condition.depth) rest
  rw [List.append_nil, htokens, hcondition] at hother
  exact (Prod.mk.inj (Option.some.inj hother)).1

/-- A condition whose text begins that of another one, and ends there, is that other one. -/
theorem eq_of_render_append {more : List Char} (hmore : Front EndsCondition more)
    (hrender : other.render.toList = condition.render.toList ++ more) : condition = other := by
  have hunquoted : Front (¬ IsQuote ·) more := fun c hc => (hmore c hc).not_isQuote
  have hscan : scanFrom .outside other.render.toList = some other.lexemes := other.scan_render
  rw [hrender, condition.scans_render more hunquoted] at hscan
  obtain ⟨behind, hbehind, hlexemes⟩ := Option.map_eq_some_iff.mp hscan
  obtain ⟨rest, htokens⟩ :=
    tokens_append_of_lexemes (front_endsWord_of_scanFrom hmore hbehind) hlexemes.symm
  exact eq_of_tokens_append htokens

/-- Two conditions that texts begin with are the same if the texts are, whatever follows. -/
theorem eq_of_append_eq_append {more more' : List Char} (hmore : Front EndsCondition more)
    (hmore' : Front EndsCondition more')
    (htext : condition.render.toList ++ more = other.render.toList ++ more') :
    condition = other := by
  rcases List.append_eq_append_iff.mp htext with ⟨part, hother, hpart⟩ | ⟨part, hcondition, hpart⟩
  · rw [hpart] at hmore
    exact eq_of_render_append hmore.of_append hother
  · rw [hpart] at hmore'
    exact (eq_of_render_append hmore'.of_append hcondition).symm

/-- No query has the condition that a column begins with a text. -/
theorem ofQuery_ne_startsWith (query : Query) (column literal : String) :
    ofQuery query ≠ startsWith column literal := by
  cases query with
  | allResults => nofun
  | joined junction left right => nofun
  | relational property relation =>
    cases relation with
    | existence present => nofun
    | compare comparison text => cases comparison <;> nofun

/-- No relation has the condition of the wildcard. -/
theorem ofRelation_ne_always (property : String) (relation : Relation) :
    ofRelation property relation ≠ always := by
  cases relation with
  | existence present => nofun
  | compare comparison text => cases comparison <;> nofun

/-- No relation has the condition of a junction: what a class derives from is joined as well,
but with a right side that no query has. -/
theorem ofRelation_ne_joined (property : String) (relation : Relation) (junction : Junction)
    (left : Condition) (right : Query) :
    ofRelation property relation ≠ joined junction left (ofQuery right) := by
  intro heq
  cases relation with
  | existence present => cases heq
  | compare comparison text =>
    cases comparison
    case derivedFrom =>
      injection heq with _ _ hright
      exact ofQuery_ne_startsWith right _ _ hright.symm
    all_goals cases heq

/-- Different relations have different conditions. -/
theorem ofRelation_inj {property property' : String} {relation relation' : Relation}
    (heq : ofRelation property relation = ofRelation property' relation') :
    property = property' ∧ relation = relation' := by
  cases relation with
  | existence present =>
    cases relation' with
    | existence present' => simpa [ofRelation] using heq
    | compare comparison' text' => cases comparison' <;> cases heq
  | compare comparison text =>
    cases relation' with
    | existence present' => cases comparison <;> cases heq
    | compare comparison' text' =>
      cases comparison <;> cases comparison' <;> simp_all [ofRelation, ofComparison]

/-- Different queries have different conditions. -/
theorem ofQuery_inj {query other : Query} (heq : ofQuery query = ofQuery other) :
    query = other := by
  induction query generalizing other with
  | allResults =>
    cases other with
    | allResults => rfl
    | relational property relation => exact absurd heq.symm (ofRelation_ne_always _ _)
    | joined junction left right => cases heq
  | relational property relation =>
    cases other with
    | allResults => exact absurd heq (ofRelation_ne_always _ _)
    | relational property' relation' =>
      obtain ⟨rfl, rfl⟩ := ofRelation_inj heq
      rfl
    | joined junction left right => exact absurd heq (ofRelation_ne_joined _ _ _ _ _)
  | joined junction left right ihleft ihright =>
    cases other with
    | allResults => cases heq
    | relational property relation => exact absurd heq.symm (ofRelation_ne_joined _ _ _ _ _)
    | joined junction' left' right' =>
      injection heq with hjunction hleft hright
      rw [hjunction, ihleft hleft, ihright hright]

end Condition

end Sql

namespace Query

/-- What may stand behind the condition of a query inside that of a larger one. -/
def sqlMarks : List String := [" AND ", " OR ", ")"]

/-- Each of the marks ends a condition, whatever follows. -/
theorem front_endsCondition_of_mem {mark : String} (hmark : mark ∈ sqlMarks) (more : List Char) :
    Front EndsCondition (mark.toList ++ more) := by
  simp only [sqlMarks, List.mem_cons, List.not_mem_nil, or_false] at hmark
  rcases hmark with rfl | rfl | rfl
  · exact front_cons.mpr (.inl rfl)
  · exact front_cons.mpr (.inl rfl)
  · exact front_cons.mpr (.inr rfl)

/-- No mark is the beginning of another one. -/
theorem eq_of_mark_append {mark mark' more more' : String} (hmark : mark ∈ sqlMarks)
    (hmark' : mark' ∈ sqlMarks) (htext : mark ++ more = mark' ++ more') :
    mark = mark' ∧ more = more' := by
  have hchars : mark.toList ++ more.toList = mark'.toList ++ more'.toList := by
    rw [← String.toList_append, htext, String.toList_append]
  simp only [sqlMarks, List.mem_cons, List.not_mem_nil, or_false] at hmark hmark'
  rcases hmark with rfl | rfl | rfl <;> rcases hmark' with rfl | rfl | rfl <;>
    simp [String.toList_inj] at hchars <;> exact ⟨rfl, hchars⟩

/-- A text that begins with the condition of a query and a mark tells which query, which mark
and what follows. -/
theorem eq_of_sql_append {query other : Query} {mark mark' more more' : String}
    (hmark : mark ∈ sqlMarks) (hmark' : mark' ∈ sqlMarks)
    (htext : query.sql ++ mark ++ more = other.sql ++ mark' ++ more') :
    query = other ∧ mark = mark' ∧ more = more' := by
  have hchars := congrArg String.toList htext
  simp only [String.toList_append, List.append_assoc] at hchars
  have hquery : query = other := by
    apply Condition.ofQuery_inj
    exact Condition.eq_of_append_eq_append (front_endsCondition_of_mem hmark _)
      (front_endsCondition_of_mem hmark' _) hchars
  subst hquery
  rw [String.append_assoc, String.append_assoc, String.append_right_inj] at htext
  exact ⟨rfl, eq_of_mark_append hmark hmark' htext⟩

/-- Different queries have different SQL texts, and a text that goes on behind the condition of
a query with a mark tells which query, which mark and what follows. -/
theorem sql_inj (query other : Query) :
    (query.sql = other.sql → query = other) ∧
      ∀ mark ∈ sqlMarks, ∀ mark' ∈ sqlMarks, ∀ more more' : String,
        query.sql ++ mark ++ more = other.sql ++ mark' ++ more' →
          query = other ∧ mark = mark' ∧ more = more' := by
  constructor
  · intro hsql
    have hchars : query.sql.toList ++ [] = other.sql.toList ++ [] := by rw [hsql]
    apply Condition.ofQuery_inj
    exact Condition.eq_of_append_eq_append (front_nil _) (front_nil _) hchars
  · intro mark hmark mark' hmark' more more' htext
    exact eq_of_sql_append hmark hmark' htext

/-- A class whose condition holds marks in its quotes and outside of them, read from a text and
written down. -/
theorem sql_inj_derivedFrom :
    ∃ query, parse .usual "a\"OR\" derivedFrom \"') OR \"" = .ok query ∧
      let other : Query := .relational "a\"OR\"" (.compare .derivedFrom "') OR ")
      query.sql = other.sql ∧ query.sql ++ " OR " ++ "'" = other.sql ++ " OR " ++ "'" ∧
        query = other ∧ " OR " = " OR " ∧ "'" = "'" := by
  refine ⟨_, rfl, ?_⟩
  intro other
  have hsql : Query.sql (.relational "a\"OR\"" (.compare .derivedFrom "') OR ")) = other.sql := rfl
  have htext := congrArg (· ++ " OR " ++ "'") hsql
  have hinj := sql_inj (.relational "a\"OR\"" (.compare .derivedFrom "') OR ")) other
  have hmark : " OR " ∈ sqlMarks := by decide
  exact ⟨hsql, htext, hinj.1 hsql, (hinj.2 _ hmark _ hmark _ _ htext).2⟩

end Query

end SearchCriteria
