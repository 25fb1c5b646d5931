/-!
# Lexemes of SQL

A double quote opens a column name and a single quote opens a text literal. Within
either, the quote written twice stands for one, and a quote alone closes. All other
characters stand for themselves.
-/

namespace SearchCriteria.Sql

/-- A part of a SQL text that is told without regard to its neighbours. -/
inductive Lexeme where
  | plain (c : Char)
  | column (name : String)
  | literal (text : String)
  deriving DecidableEq

/-- What stands between two quotes of this kind. -/
def Lexeme.quoted (mark : Char) (text : String) : Lexeme :=
  if mark = '"' then column text else literal text

namespace Lexeme

/-- Where a scan stands. -/
inductive Mode where
  /-- Outside of quotes. -/
  | outside
  /-- Between quotes of this kind, behind the text. -/
  | inside (mark : Char) (text : String)
  /-- Behind a quote that closes unless it is followed by another one. -/
  | closing (mark : Char) (text : String)
  deriving DecidableEq

/-- The character behind what is outside of quotes. -/
def openAt (c : Char) : List Lexeme × Mode :=
  if c = '"' ∨ c = '\'' then ([], .inside c "") else ([plain c], .outside)

/-- One more character: the lexemes that are complete, and where the scan stands. -/
def Mode.step : Mode → Char → List Lexeme × Mode
  | outside, c => openAt c
  | inside mark text, c =>
    if c = mark then ([], closing mark text) else ([], inside mark (text.push c))
  | closing mark text, c =>
    if c = mark then ([], inside mark (text.push c))
    else
      let (lexemes, mode) := openAt c
      (quoted mark text :: lexemes, mode)

/-- The lexeme that the end of the text completes; it must not lie between quotes. -/
def Mode.finish : Mode → Option (List Lexeme)
  | outside => some []
  | inside _ _ => none
  | closing mark text => some [quoted mark text]

/-- The lexemes of a text, from where a scan stands. -/
def scanFrom (mode : Mode) : List Char → Option (List Lexeme)
  | [] => mode.finish
  | c :: rest =>
    let (lexemes, mode) := mode.step c
    (scanFrom mode rest).map (lexemes ++ ·)

/-- The lexemes of a SQL text. -/
def scan (text : String) : Option (List Lexeme) := scanFrom .outside text.toList

/-- The lexeme with nothing between its quotes. -/
def blank : Lexeme → Lexeme
  | plain c => plain c
  | column _ => column ""
  | literal _ => literal ""

/-- Whether a lexeme stands in quotes. -/
def isQuoted : Lexeme → Bool
  | plain _ => false
  | _ => true

end Lexeme

end SearchCriteria.Sql
