import SearchCriteria.Toml.Node

/-!
# Statements

A document is read as a list of statements: a key with its value, or a header that
tells to which table the following keys belong.
-/

namespace SearchCriteria.Toml

/-- A path that dots separate, with its last key apart. -/
structure Path where
  tables : List String
  key : String

/-- A statement of a document. -/
inductive Statement where
  /-- The key has the value. -/
  | assign (path : Path) (value : Node)
  /-- The following keys belong to this table. -/
  | table (path : Path)
  /-- The following keys belong to a further table of this array. -/
  | element (path : Path)

/-- How many arrays and tables in braces may enclose a value. -/
def nestingLimit : Nat := 79

/-- How many keys a path may have. -/
def pathLimit : Nat := 79

/-- Whether a character may stand in a key without quotes. -/
def isKeyChar (c : Char) : Bool := c.isAlphanum || c = '-' || c = '_'

/-- A single key, in quotes or without. -/
def readKey : Reading String := fun text =>
  match text.takeWhile isKeyChar with
  | [] => readLineString text
  | word => some (String.ofList word, text.dropWhile isKeyChar)

/-- A single key with the blanks around it. -/
def readSpacedKey : Reading String := fun text => do
  let (key, rest) ← readKey (skipBlanks text)
  some (key, skipBlanks rest)

/-- The keys of a path. -/
def readPath : Reading Path := fun text => do
  let (first, rest) ← readSpacedKey text
  let (more, rest) := readMany (fun text => do
    let ((), rest) ← readMark '.' text
    readSpacedKey rest) rest
  if pathLimit ≤ more.length then none
  let keys := first :: more
  some (⟨keys.dropLast, keys.getLast (List.cons_ne_nil _ _)⟩, rest)

/-- Whether a character may stand in a number, a truth value or a moment. -/
def isWordChar (c : Char) : Bool := isKeyChar c || c = '+' || c = '.' || c = ':'

/-- What a word stands for. -/
def word? (word : List Char) : Option Node :=
  match word with
  | ['t', 'r', 'u', 'e'] => some (.boolean true)
  | ['f', 'a', 'l', 's', 'e'] => some (.boolean false)
  | _ =>
    ((moment? word).map Node.moment).or <|
    ((decimal? word).map Node.decimal).or <|
    (integer? word).map Node.integer

/-- A number, a truth value or a moment. A date may be followed by a space and a time. -/
def readWord : Reading Node := fun text => do
  let word := text.takeWhile isWordChar
  let rest := text.dropWhile isWordChar
  match readDate word, rest with
  | some (date, []), ' ' :: rest =>
    if (rest.head?.map Char.isDigit).getD false then
      let moment ← timeOn? date (rest.takeWhile isWordChar)
      some (.moment moment, rest.dropWhile isWordChar)
    else some (.moment ⟨some date, none, none⟩, ' ' :: rest)
  | _, _ => (word? word).map fun node => (node, rest)

/-- The items of an array, after its opening bracket. A comma may stand behind the last. -/
def readItems (value : Reading Node) : Reading (List Node) := fun text => do
  let item : Reading Node := fun text => do
    let (node, rest) ← value (skipLines text)
    some (node, skipLines rest)
  match skipLines text with
  | ']' :: rest => some ([], rest)
  | text =>
    let (first, rest) ← item text
    let (more, rest) := readMany (fun text => do
      let ((), rest) ← readMark ',' text
      item rest) rest
    let rest := ((readMark ',' rest).map (·.2)).getD rest
    let ((), rest) ← readMark ']' (skipLines rest)
    some (first :: more, rest)

/-- A key with its value, on one line and with the blanks around them. -/
def readEntry (value : Reading Node) : Reading (Path × Node) := fun text => do
  let (path, rest) ← readPath text
  let ((), rest) ← readMark '=' rest
  let (node, rest) ← value (skipBlanks rest)
  some ((path, node), skipBlanks rest)

/-- The entries of a table in braces, after the opening one. -/
def readBraces (value : Reading Node) : Reading Entries := fun text =>
  match skipBlanks text with
  | '\x7d' :: rest => some ([], rest)
  | text => do
    let (first, rest) ← readEntry value text
    let (more, rest) := readMany (fun text => do
      let ((), rest) ← readMark ',' text
      readEntry value rest) rest
    let ((), rest) ← readMark '\x7d' rest
    let entries ← (first :: more).foldlM (fun entries (path, node) =>
      Entries.assign path.key node true path.tables entries) []
    some (entries, rest)

/-- A value that so many arrays and tables may still enclose. -/
def readValue : Nat → Reading Node
  | levels, text =>
    match text, levels with
    | '"' :: _, _ | '\'' :: _, _ => (readString text).map fun (s, rest) => (.string s, rest)
    | '[' :: rest, levels + 1 =>
      (readItems (readValue levels) rest).map fun (items, rest) => (.array items, rest)
    | '\x7b' :: rest, levels + 1 =>
      (readBraces (readValue levels) rest).map fun (entries, rest) =>
        (.table .braces entries, rest)
    | _, _ => readWord text

/-- A header, after its opening brackets. -/
def readHeader (close : List Char) : Reading Path := fun text => do
  let (path, rest) ← readPath text
  if close.isPrefixOf rest then some (path, rest.drop close.length) else none

/-- A line of a document that is not empty. -/
def readStatement : Reading Statement := fun text => do
  let (statement, rest) ← match text with
    | '[' :: '[' :: rest =>
      (readHeader [']', ']'] rest).map fun (path, rest) => (Statement.element path, rest)
    | '[' :: rest => (readHeader [']'] rest).map fun (path, rest) => (Statement.table path, rest)
    | text => (readEntry (readValue nestingLimit) text).map fun ((path, value), rest) =>
      (Statement.assign path value, rest)
  let rest ← readLineEnd rest
  some (statement, rest)

/-- A line of a document, with the empty lines and comments before it. -/
def readLineStatement : Reading Statement := fun text => readStatement (skipLines text)

/-- The statements of a document. A byte-order mark may stand before them. -/
def statements? (text : List Char) : Option (List Statement) :=
  let text := match text with
    | '\ufeff' :: rest => rest
    | text => text
  let (statements, rest) := readMany readLineStatement text
  if (readLineEnd (skipLines rest)) = some [] then some statements else none

end SearchCriteria.Toml
