import SearchCriteria.Reading
import SearchCriteria.Sql.Condition
import SearchCriteria.Sql.Lexeme

/-!
# Reading SQL conditions

The conditions of SQL that queries become are read with the usual precedence:
`AND` binds tighter than `OR`, both group to the left, and parentheses enclose.
-/

namespace SearchCriteria.Sql

/-- A word, a mark or a quoted part of a SQL text. -/
inductive Token where
  /-- A run of letters and digits, or of the signs of comparison. -/
  | word (text : String)
  /-- A parenthesis or a comma. -/
  | mark (c : Char)
  | column (name : String)
  | literal (text : String)
  deriving DecidableEq

namespace Token

/-- Whether a character belongs to names and numbers. -/
def isNameChar (c : Char) : Bool := c.isAlphanum || c = '_'

/-- Whether a character belongs to the signs of comparison. -/
def isSign (c : Char) : Bool := c = '=' || c = '<' || c = '>'

/-- Whether a word goes on with a character, as its characters are of one kind. -/
def goesOn (word : String) (c : Char) : Bool :=
  (isNameChar c && word.toList.all isNameChar) || (isSign c && word.toList.all isSign)

/-- A word that has ended; the empty one is none. -/
def ended (word : String) : List Token := if word.isEmpty then [] else [.word word]

/-- The tokens of lexemes that follow an open word. -/
def ofLexemesFrom (word : String) : List Lexeme → Option (List Token)
  | [] => some (ended word)
  | .column name :: rest => (ofLexemesFrom "" rest).map (ended word ++ .column name :: ·)
  | .literal text :: rest => (ofLexemesFrom "" rest).map (ended word ++ .literal text :: ·)
  | .plain c :: rest =>
    if goesOn word c then ofLexemesFrom (word.push c) rest
    else if isNameChar c ∨ isSign c then
      (ofLexemesFrom (String.singleton c) rest).map (ended word ++ ·)
    else if c = ' ' then (ofLexemesFrom "" rest).map (ended word ++ ·)
    else if c = '(' ∨ c = ')' ∨ c = ',' then
      (ofLexemesFrom "" rest).map (ended word ++ .mark c :: ·)
    else none

/-- The tokens of a SQL text. -/
def ofText (text : String) : Option (List Token) :=
  (Lexeme.scan text).bind (ofLexemesFrom "")

end Token

/-- The comparison operator of a sign. -/
def Comparator.ofSymbol? (symbol : String) : Option Comparator :=
  [equal, notEqual, less, lessOrEqual, greater, greaterOrEqual].find? (·.symbol = symbol)

namespace Condition

/-- A condition with neither junctions nor parentheses around it. -/
def readSimple : Reading Token Condition
  | .word "TRUE" :: rest => some (always, rest)
  | .word "strpos" :: .mark '(' :: .column column :: .mark ',' :: .literal literal ::
      .mark ')' :: .word sign :: .word "0" :: rest =>
    if sign = ">" then some (occurs column literal true, rest)
    else if sign = "=" then some (occurs column literal false, rest)
    else none
  | .word "starts_with" :: .mark '(' :: .column column :: .mark ',' :: .literal literal ::
      .mark ')' :: rest => some (startsWith column literal, rest)
  | .column column :: .word "IS" :: .word "NULL" :: rest => some (isNull column true, rest)
  | .column column :: .word "IS" :: .word "NOT" :: .word "NULL" :: rest =>
    some (isNull column false, rest)
  | .column column :: .word sign :: .literal literal :: rest =>
    (Comparator.ofSymbol? sign).map fun comparator => (compare column comparator literal, rest)
  | _ => none

/-- A simple condition, or any condition in parentheses. -/
def readOperand (inner : Reading Token Condition) : Reading Token Condition
  | .mark '(' :: rest =>
    match inner rest with
    | some (condition, .mark ')' :: rest) => some (condition, rest)
    | _ => none
  | tokens => readSimple tokens

/-- The keyword of a junction and the operand behind it. -/
def readSide (junction : Junction) (operand : Reading Token Condition) :
    Reading Token Condition
  | .word word :: rest => if word = keyword junction then operand rest else none
  | _ => none

/-- Operands with the same junction between them, grouped to the left. -/
def readJoined (junction : Junction) (operand : Reading Token Condition) :
    Reading Token Condition := fun tokens => do
  let (first, rest) ← operand tokens
  let (more, rest) := readMany (readSide junction operand) rest
  some (more.foldl (joined junction) first, rest)

/-- A condition with so many parentheses, at most, around each part. -/
def readWithin : Nat → Reading Token Condition
  | 0 => fun _ => none
  | depth + 1 => readJoined .or (readJoined .and (readOperand (readWithin depth)))

/-- The condition of a SQL text. Each parenthesis takes a token, so their number bounds
how deep they nest. -/
def parse? (text : String) : Option Condition := do
  let tokens ← Token.ofText text
  match readWithin (tokens.length + 1) tokens with
  | some (condition, []) => some condition
  | _ => none

end Condition

end SearchCriteria.Sql
