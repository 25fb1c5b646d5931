import SearchCriteria.Toml.Reading

/-!
# Strings

A string stands in double quotes, where a backslash begins an escape, or in
single quotes, where every character is itself. Three quotes enclose a string
that may run over several lines; one or two quotes may stand inside it.
-/

namespace SearchCriteria.Toml

/-- The value of a hexadecimal digit. -/
def hexDigit? (c : Char) : Option Nat :=
  if c.isDigit then some (c.toNat - '0'.toNat)
  else if 'a' ≤ c ∧ c ≤ 'f' then some (c.toNat - 'a'.toNat + 10)
  else if 'A' ≤ c ∧ c ≤ 'F' then some (c.toNat - 'A'.toNat + 10)
  else none

/-- The number of a digit sequence in base sixteen. -/
def hexNumber? (digits : List Char) : Option Nat :=
  digits.foldlM (fun number c => (hexDigit? c).map (16 * number + ·)) 0

/-- The character whose number stands in so many hexadecimal digits. -/
def readCodePoint (count : Nat) : Reading Char := fun text => do
  let digits := text.take count
  if digits.length < count then none
  let number ← hexNumber? digits
  if number < 0xd800 ∨ (0xdfff < number ∧ number < 0x110000) then
    some (Char.ofNat number, text.drop count)
  else none

/-- The character that an escape tells, after its backslash. -/
def readEscape : Reading Char
  | 'b' :: rest => some ('\x08', rest)
  | 't' :: rest => some ('\t', rest)
  | 'n' :: rest => some ('\n', rest)
  | 'f' :: rest => some ('\x0c', rest)
  | 'r' :: rest => some ('\r', rest)
  | '"' :: rest => some ('"', rest)
  | '\\' :: rest => some ('\\', rest)
  | 'u' :: rest => readCodePoint 4 rest
  | 'U' :: rest => readCodePoint 8 rest
  | _ => none

/-- A character of a string that ends with `quote` and has no escapes. -/
def readLiteralChar (quote : Char) : Reading Char
  | c :: rest => if c ≠ quote ∧ isPlain c then some (c, rest) else none
  | [] => none

/-- A character between double quotes. -/
def readBasicChar : Reading Char
  | '\\' :: rest => readEscape rest
  | text => readLiteralChar '"' text

/-- A string on one line, after its opening quote. -/
def readLine (quote : Char) (char : Reading Char) : Reading String := fun text =>
  match readMany char text with
  | (content, close :: rest) =>
    if close = quote then some (String.ofList content, rest) else none
  | (_, []) => none

/-- One or two quotes inside a string of several lines. -/
def readInnerQuotes (quote : Char) : Reading (List Char)
  | a :: b :: c :: rest =>
    if a ≠ quote then none
    else if b ≠ quote then some ([a], b :: c :: rest)
    else if c ≠ quote then some ([a, b], c :: rest)
    else none
  | _ => none

/-- A line end that a backslash takes away, together with the blanks around it and
the empty lines behind it. -/
def readJoinedLines : Reading (List Char)
  | '\\' :: rest => do
    let ((), rest) ← readNewline (skipBlanks rest)
    let (_, rest) := readMany (fun text =>
      match text with
      | ' ' :: rest | '\t' :: rest => some ((), rest)
      | _ => readNewline text) rest
    some ([], rest)
  | _ => none

/-- A piece of a string of several lines. -/
def readPiece (quote : Char) (char : Reading Char) : Reading (List Char) := fun text =>
  (readInnerQuotes quote text).or <|
  ((readNewline text).map fun ((), rest) => (['\n'], rest)).or <|
  (char text).map fun (c, rest) => ([c], rest)

/-- The end of a string of several lines. One or two quotes may stand before it. -/
def readClose (quote : Char) (text : List Char) : Option (List Char × List Char) :=
  let count := (text.takeWhile (· = quote)).length
  if count < 3 then none
  else some (List.replicate (min (count - 3) 2) quote, text.drop (min count 5))

/-- A string of several lines, after its opening quotes. A line end directly behind
them does not belong to it. -/
def readLines (quote : Char) (piece : Reading (List Char)) : Reading String := fun text => do
  let text := ((readNewline text).map (·.2)).getD text
  let (pieces, rest) := readMany piece text
  let (quotes, rest) ← readClose quote rest
  some (String.ofList (pieces.flatten ++ quotes), rest)

/-- A string on one line. -/
def readLineString : Reading String
  | '"' :: rest => readLine '"' readBasicChar rest
  | '\'' :: rest => readLine '\'' (readLiteralChar '\'') rest
  | _ => none

/-- A string. -/
def readString : Reading String
  | '"' :: '"' :: '"' :: rest =>
    readLines '"' (fun text => (readJoinedLines text).or (readPiece '"' readBasicChar text)) rest
  | '\'' :: '\'' :: '\'' :: rest =>
    readLines '\'' (readPiece '\'' (readLiteralChar '\'')) rest
  | text => readLineString text

end SearchCriteria.Toml
