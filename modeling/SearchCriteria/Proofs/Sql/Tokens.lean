import SearchCriteria.Proofs.Sql.Scan
import SearchCriteria.Sql.Reader

/-!
# The tokens of conditions

In the text of a condition every word ends before a space, a parenthesis, a comma or a quoted
part, so it becomes a token of its own and no two words run together.
-/

namespace SearchCriteria.Sql

open Lexeme

namespace Token

/-- Whether every open word ends before the lexeme. -/
def EndsWord : Lexeme → Prop
  | .plain c => c = ' ' ∨ c = '(' ∨ c = ')' ∨ c = ','
  | _ => True

@[simp] theorem endsWord_plain {c : Char} :
    EndsWord (.plain c) ↔ c = ' ' ∨ c = '(' ∨ c = ')' ∨ c = ',' := Iff.rfl

@[simp] theorem endsWord_literal (text : String) : EndsWord (.literal text) := trivial

/-- `Gives lexemes tokens`: the lexemes give the tokens, whatever follows, unless it goes on
with the last word. -/
abbrev Gives : List Lexeme → List Token → Prop := Yields (ofLexemesFrom "") EndsWord

/-- A word that ends is a token of its own. -/
theorem ofLexemesFrom_of_ends {rest : List Lexeme} (hrest : Front EndsWord rest) (word : String) :
    ofLexemesFrom word rest = (ofLexemesFrom "" rest).map (ended word ++ ·) := by
  have hempty : ended "" = [] := rfl
  cases rest with
  | nil => simp [ofLexemesFrom, hempty]
  | cons lexeme rest =>
    have hends : EndsWord lexeme := front_cons.mp hrest
    cases lexeme with
    | column name => simp [ofLexemesFrom, hempty, Function.comp_def]
    | literal text => simp [ofLexemesFrom, hempty, Function.comp_def]
    | plain c =>
      rcases hends with rfl | rfl | rfl | rfl
      all_goals
        simp [ofLexemesFrom, goesOn, isNameChar, isSign, hempty, Function.comp_def]

/-- Whether the characters of a text are all of one kind. -/
def OneKind (text : List Char) : Prop := text.all isNameChar = true ∨ text.all isSign = true
  deriving Decidable

/-- Whether a text is a single word. -/
def IsWord (text : String) : Prop := text ≠ "" ∧ OneKind text.toList
  deriving Decidable

/-- A word goes on with characters of its own kind. -/
theorem ofLexemesFrom_word {word : String} {more : List Char}
    (hword : OneKind (word.toList ++ more)) (rest : List Lexeme) :
    ofLexemesFrom word (more.map plain ++ rest) =
      ofLexemesFrom (word ++ String.ofList more) rest := by
  induction more generalizing word with
  | nil => simp
  | cons c more ih =>
    have hgoesOn : goesOn word c = true := by
      rcases hword with hname | hsign
      · simp only [List.all_append, List.all_cons, Bool.and_eq_true] at hname
        simp only [goesOn, hname, Bool.and_self, Bool.true_or]
      · simp only [List.all_append, List.all_cons, Bool.and_eq_true] at hsign
        simp only [goesOn, hsign, Bool.and_self, Bool.or_true]
    have hpush : (word.push c).toList ++ more = word.toList ++ c :: more := by simp
    rw [List.map_cons, List.cons_append, ofLexemesFrom, if_pos hgoesOn, ih (by rwa [hpush]),
      Text.push_append_ofList]

namespace Gives

variable {lexemes : List Lexeme} {tokens : List Token}

/-- A space only ends what stands before it. -/
theorem space (hgives : Gives lexemes tokens) : Gives (.plain ' ' :: lexemes) tokens :=
  hgives.cons [] fun _ => rfl

/-- A parenthesis or a comma is a token of its own. -/
theorem mark {c : Char} (hc : c = '(' ∨ c = ')' ∨ c = ',') (hgives : Gives lexemes tokens) :
    Gives (.plain c :: lexemes) (.mark c :: tokens) := by
  apply hgives.cons [.mark c]
  intro rest
  rcases hc with rfl | rfl | rfl <;> rfl

/-- A column name is a token of its own. -/
theorem column (name : String) (hgives : Gives lexemes tokens) :
    Gives (.column name :: lexemes) (.column name :: tokens) :=
  hgives.cons [.column name] fun _ => rfl

/-- A text literal is a token of its own. -/
theorem literal (text : String) (hgives : Gives lexemes tokens) :
    Gives (.literal text :: lexemes) (.literal text :: tokens) :=
  hgives.cons [.literal text] fun _ => rfl

/-- A word is a token of its own. -/
theorem word (word : String) (hword : IsWord word) : Gives (spell word) [.word word] := by
  intro rest hrest
  obtain ⟨hnonempty, hkind⟩ := hword
  have hended : ended word = [.word word] := by
    simp [ended, hnonempty]
  have hread : ofLexemesFrom "" (word.toList.map plain ++ rest) =
      ofLexemesFrom ("" ++ String.ofList word.toList) rest := ofLexemesFrom_word hkind rest
  rw [String.ofList_toList, String.empty_append] at hread
  rw [spell, hread, ofLexemesFrom_of_ends hrest, hended]

/-- A word is a token of its own where it ends before the others. -/
theorem word_append (text : String) (hword : IsWord text) (hgives : Gives lexemes tokens)
    (hends : Front EndsWord lexemes) : Gives (spell text ++ lexemes) (.word text :: tokens) :=
  (word text hword).append hgives hends

/-- A closing parenthesis is a token of its own. -/
theorem close : Gives [.plain ')'] [.mark ')'] := mark (.inr (.inl rfl)) .nil

/-- The number of a call is compared with zero behind its parenthesis. -/
theorem zero (sign : String) (hsign : IsWord sign) :
    Gives (.plain ')' :: .plain ' ' :: (spell sign ++ .plain ' ' :: spell "0"))
      [.mark ')', .word sign, .word "0"] := by
  have hzero := (word "0" (by decide)).space
  have hend := word_append sign hsign hzero (by simp)
  exact hend.space.mark (.inr (.inl rfl))

/-- A call names its column and its literal in parentheses. -/
theorem call (function name text : String) (hfunction : IsWord function)
    (hgives : Gives lexemes tokens) :
    Gives (spell function ++ .plain '(' :: .column name :: .plain ',' :: .plain ' ' ::
        .literal text :: lexemes)
      (.word function :: .mark '(' :: .column name :: .mark ',' :: .literal text :: tokens) := by
  have hoperands := ((hgives.literal text).space.mark (.inr (.inr rfl))).column name
  exact word_append function hfunction (hoperands.mark (.inl rfl)) (by simp)

end Gives

end Token

namespace Condition

open Token

/-- The tokens of the text of a condition. -/
def tokens : Condition → List Token
  | always => [.word "TRUE"]
  | compare name comparator text => [.column name, .word comparator.symbol, .literal text]
  | occurs name text found =>
    [.word "strpos", .mark '(', .column name, .mark ',', .literal text, .mark ')',
      .word (if found then ">" else "="), .word "0"]
  | startsWith name text =>
    [.word "starts_with", .mark '(', .column name, .mark ',', .literal text, .mark ')']
  | isNull name null =>
    .column name :: .word "IS" :: if null then [.word "NULL"] else [.word "NOT", .word "NULL"]
  | joined junction left right =>
    .mark '(' :: (left.tokens ++ .word (keyword junction) :: (right.tokens ++ [.mark ')']))

/-- Each sign of comparison is a single word. -/
theorem isWord_symbol (comparator : Comparator) : IsWord comparator.symbol := by
  cases comparator <;> decide

/-- Each keyword of a junction is a single word. -/
theorem isWord_keyword (junction : Junction) : IsWord (keyword junction) := by
  cases junction <;> decide

/-- The lexemes of a condition give its tokens. -/
theorem gives_lexemes (condition : Condition) : Gives condition.lexemes condition.tokens := by
  induction condition with
  | always => exact .word "TRUE" (by decide)
  | compare name comparator text =>
    have hliteral := (Gives.literal text .nil).space
    have hsymbol := Gives.word_append _ (isWord_symbol comparator) hliteral (by simp)
    have hcondition := hsymbol.space.column name
    simpa [lexemes, tokens, spell] using hcondition
  | occurs name text found =>
    have hend : Gives (spell (if found then ") > 0" else ") = 0"))
        [.mark ')', .word (if found then ">" else "="), .word "0"] := by
      cases found with
      | false => exact .zero "=" (by decide)
      | true => exact .zero ">" (by decide)
    have hcondition := hend.call "strpos" name text (by decide)
    simpa [lexemes, tokens, spell] using hcondition
  | startsWith name text =>
    have hcondition := Gives.close.call "starts_with" name text (by decide)
    simpa [lexemes, tokens, spell] using hcondition
  | isNull name null =>
    have hnull := (Gives.word "NULL" (by decide)).space
    cases null with
    | true =>
      have his := Gives.word_append "IS" (by decide) hnull (by simp)
      exact his.space.column name
    | false =>
      have hnot := Gives.word_append "NOT" (by decide) hnull (by simp)
      have his := Gives.word_append "IS" (by decide) hnot.space (by simp)
      exact his.space.column name
  | joined junction left right ihleft ihright =>
    have hright := Gives.space (ihright.append Gives.close (by simp))
    have hkeyword := (Gives.word_append _ (isWord_keyword junction) hright (by simp)).space
    have hcondition := Gives.mark (.inl rfl) (ihleft.append hkeyword (by simp))
    simpa [lexemes, tokens, spell] using hcondition

/-- The text of a condition gives its tokens. -/
theorem ofText_render (condition : Condition) :
    Token.ofText condition.render = some condition.tokens := by
  rw [ofText, scan_render, Option.bind_some, condition.gives_lexemes.read_eq]
  simp [ofLexemesFrom, ended]

end Condition

end SearchCriteria.Sql
