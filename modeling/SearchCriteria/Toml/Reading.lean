import SearchCriteria.Reading

/-!
# Lines and blanks

A document consists of lines. Blanks separate words within a line, and a comment
runs to the end of its line.
-/

namespace SearchCriteria.Toml

/-- A reading of characters. -/
abbrev Reading (α : Type) := SearchCriteria.Reading Char α

/-- The line ends are the line feed alone and the carriage return before one. -/
def readNewline : Reading Unit
  | '\n' :: rest => some ((), rest)
  | '\r' :: '\n' :: rest => some ((), rest)
  | _ => none

/-- Whether a character separates words within a line. -/
def isBlank (c : Char) : Bool := c = ' ' || c = '\t'

/-- Whether a character may stand as itself in comments and strings. -/
def isPlain (c : Char) : Bool := c = '\t' || (0x20 ≤ c.toNat && c.toNat ≠ 0x7f)

/-- The text without the blanks at its front. -/
def skipBlanks (text : List Char) : List Char := text.dropWhile isBlank

/-- The text without the comment at its front. -/
def skipComment : List Char → List Char
  | '#' :: rest => rest.dropWhile isPlain
  | text => text

/-- The end of a line, after blanks and a comment. The last line may lack a line end. -/
def readLineEnd (text : List Char) : Option (List Char) :=
  match skipComment (skipBlanks text) with
  | [] => some []
  | text => (readNewline text).map (·.2)

/-- The text without the blanks, comments and line ends at its front. -/
def skipLines (text : List Char) : List Char :=
  (readMany (fun text => readNewline (skipComment (skipBlanks text))) text).2 |> skipBlanks

end SearchCriteria.Toml
