import SearchCriteria.Proofs.Reading
import SearchCriteria.Sql.Condition
import SearchCriteria.Sql.Lexeme

/-!
# The lexemes of conditions

A quoted part of a rendered condition is scanned to the name or text that it was made of,
whatever quotes that holds, because no quote stands behind the one that closes it. So the
lexemes of a rendered condition can be written down without a scan.
-/

namespace SearchCriteria.Sql

namespace Lexeme

/-- The lexemes of a text without quotes. -/
def spell (text : String) : List Lexeme := text.toList.map plain

/-- Whether a character opens a quoted part. -/
def IsQuote (c : Char) : Prop := c = '"' ∨ c = '\''
  deriving Decidable

/-- No quote stands anywhere. -/
def Unquoted (text : List Char) : Prop := ∀ c ∈ text, ¬ IsQuote c

instance (text : List Char) : Decidable (Unquoted text) := List.decidableBAll _ text

/-- `Scans text lexemes`: the scan of the text, from outside of quotes, gives the lexemes and
ends outside of quotes, whatever follows, unless a quote follows at once. -/
abbrev Scans : List Char → List Lexeme → Prop := Yields (scanFrom .outside) (¬ IsQuote ·)

/-- A character that opens no quoted part stands for itself. -/
theorem scanFrom_cons_plain {c : Char} (hc : ¬ IsQuote c) (rest : List Char) :
    scanFrom .outside (c :: rest) = (scanFrom .outside rest).map (plain c :: ·) := by
  have hopen : openAt c = ([plain c], .outside) := if_neg hc
  simp only [scanFrom, Mode.step, hopen, List.singleton_append]

/-- Between quotes a doubled text is read back to where the quote may close. -/
theorem scanFrom_double (mark : Char) (text : String) (more rest : List Char) :
    scanFrom (.inside mark text) (double mark more ++ rest) =
      scanFrom (.inside mark (text ++ String.ofList more)) rest := by
  induction more generalizing text with
  | nil => simp
  | cons c more ih =>
    have hchar : scanFrom (.inside mark text)
        ((if c = mark then [c, c] else [c]) ++ (double mark more ++ rest)) =
          scanFrom (.inside mark (text.push c)) (double mark more ++ rest) := by
      by_cases hc : c = mark
      · simp [hc, scanFrom, Mode.step]
      · simp [hc, scanFrom, Mode.step]
    rw [double_cons, List.append_assoc, hchar, ih, Text.push_append_ofList]

/-- A quote closes unless another one of its kind follows. -/
theorem scanFrom_closing {mark : Char} (hmark : IsQuote mark) (text : String) {rest : List Char}
    (hrest : Front (¬ IsQuote ·) rest) :
    scanFrom (.closing mark text) rest =
      (scanFrom .outside rest).map (quoted mark text :: ·) := by
  cases rest with
  | nil => rfl
  | cons c rest =>
    have hc : ¬ IsQuote c := hrest c rfl
    have hne : c ≠ mark := fun heq => hc (heq ▸ hmark)
    have hopen : openAt c = ([plain c], .outside) := if_neg hc
    rw [scanFrom_cons_plain hc, Option.map_map]
    simp only [scanFrom, Mode.step, hopen, if_neg hne]
    rfl

namespace Scans

/-- A part in quotes stands for what was put in quotes. -/
theorem enclose {mark : Char} (hmark : IsQuote mark) (text : String) :
    Scans (enclose mark text).toList [quoted mark text] := by
  intro rest hrest
  have hopen : openAt mark = ([], .inside mark "") := if_pos hmark
  have hclose : (Mode.inside mark text).step mark = ([], .closing mark text) := by
    simp [Mode.step]
  rw [toList_enclose, List.cons_append, List.append_assoc, scanFrom, Mode.step, hopen]
  simp only [List.nil_append, Option.map_id']
  rw [scanFrom_double, String.ofList_toList, String.empty_append, List.singleton_append, scanFrom,
    hclose]
  simp only [List.nil_append, Option.map_id']
  exact scanFrom_closing hmark text hrest

/-- A word without quotes stands for its characters, whatever follows. -/
theorem word_append (word : String) (hword : Unquoted word.toList) {text : List Char}
    {lexemes : List Lexeme} (htext : Scans text lexemes) :
    Scans (word.toList ++ text) (spell word ++ lexemes) := by
  rw [spell]
  generalize word.toList = chars at hword
  induction chars with
  | nil => exact htext
  | cons c more ih =>
    obtain ⟨hc, hmore⟩ := List.forall_mem_cons.mp hword
    exact (ih hmore).cons [plain c] (scanFrom_cons_plain hc)

/-- A word without quotes stands for its characters. -/
theorem word (word : String) (hword : Unquoted word.toList) :
    Scans word.toList (spell word) := by
  have happend := word_append word hword .nil
  rwa [List.append_nil, List.append_nil] at happend

/-- A word without quotes keeps the parts before and behind it apart. -/
theorem join {left right : List Char} {before behind : List Lexeme} (hleft : Scans left before)
    (word : String) (hword : Unquoted word.toList) (hnonempty : word.toList ≠ [])
    (hright : Scans right behind) :
    Scans (left ++ (word.toList ++ right)) (before ++ (spell word ++ behind)) := by
  apply hleft.append (word_append word hword hright)
  intro c hc
  cases hlist : word.toList with
  | nil => exact absurd hlist hnonempty
  | cons d more =>
    rw [hlist] at hc hword
    obtain rfl := Option.some.inj hc
    exact hword d List.mem_cons_self

end Scans

end Lexeme

namespace Condition

open Lexeme

/-- The lexemes of the text of a condition. -/
def lexemes : Condition → List Lexeme
  | always => spell "TRUE"
  | compare name comparator text =>
    [column name] ++ (spell (" " ++ comparator.symbol ++ " ") ++ [literal text])
  | occurs name text found =>
    spell "strpos(" ++ ([column name] ++
      (spell ", " ++ ([literal text] ++ spell (if found then ") > 0" else ") = 0"))))
  | startsWith name text =>
    spell "starts_with(" ++ ([column name] ++ (spell ", " ++ ([literal text] ++ spell ")")))
  | isNull name null => [column name] ++ spell (if null then " IS NULL" else " IS NOT NULL")
  | joined junction left right =>
    spell "(" ++ (left.lexemes ++
      (spell (" " ++ keyword junction ++ " ") ++ (right.lexemes ++ spell ")")))

/-- The text of a condition is scanned to its lexemes. -/
theorem scans_render (condition : Condition) : Scans condition.render.toList condition.lexemes := by
  have hcolumn : ∀ name, Scans (quoteColumn name).toList [column name] :=
    fun name => .enclose (.inl rfl) name
  have hliteral : ∀ text, Scans (quoteLiteral text).toList [literal text] :=
    fun text => .enclose (.inr rfl) text
  induction condition with
  | always => exact .word "TRUE" (by decide)
  | compare name comparator text =>
    have hword : Unquoted (" " ++ comparator.symbol ++ " ").toList := by
      cases comparator <;> decide
    have hscans := (hcolumn name).join _ hword (by simp) (hliteral text)
    simpa only [render, lexemes, String.toList_append, List.append_assoc] using hscans
  | occurs name text found =>
    have hend : Scans ((quoteLiteral text).toList ++ (if found then ") > 0" else ") = 0").toList)
        ([literal text] ++ spell (if found then ") > 0" else ") = 0")) := by
      cases found with
      | false => exact (hliteral text).append (Scans.word ") = 0" (by decide)) (by decide)
      | true => exact (hliteral text).append (Scans.word ") > 0" (by decide)) (by decide)
    have hparts := (hcolumn name).join ", " (by decide) (by decide) hend
    have hscans := hparts.word_append "strpos(" (by decide)
    simpa only [render, lexemes, String.toList_append, List.append_assoc] using hscans
  | startsWith name text =>
    have hend := (hliteral text).append (Scans.word ")" (by decide)) (by decide)
    have hparts := (hcolumn name).join ", " (by decide) (by decide) hend
    have hscans := hparts.word_append "starts_with(" (by decide)
    simpa only [render, lexemes, String.toList_append, List.append_assoc] using hscans
  | isNull name null =>
    rw [render, String.toList_append]
    cases null with
    | false => exact (hcolumn name).append (Scans.word " IS NOT NULL" (by decide)) (by decide)
    | true => exact (hcolumn name).append (Scans.word " IS NULL" (by decide)) (by decide)
  | joined junction left right ihleft ihright =>
    have hword : Unquoted (" " ++ keyword junction ++ " ").toList := by
      cases junction <;> decide
    have hend := ihright.append (Scans.word ")" (by decide)) (by decide)
    have hsides := ihleft.join _ hword (by simp) hend
    have hscans := hsides.word_append "(" (by decide)
    simpa only [render, lexemes, String.toList_append, List.append_assoc] using hscans

/-- The whole text of a condition is scanned, and the scan ends outside of quotes. -/
theorem scan_render (condition : Condition) : scan condition.render = some condition.lexemes := by
  rw [scan, condition.scans_render.read_eq, scanFrom, Mode.finish, Option.map_some,
    List.append_nil]

end Condition

end SearchCriteria.Sql
