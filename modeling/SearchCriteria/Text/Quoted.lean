/-!
# Quoted texts

Inside double quotes a backslash stands before each double quote and each
backslash of the text, and nowhere else; so a text has one quoted form.
-/

namespace SearchCriteria.Text

/-- Whether a character is written behind a backslash inside double quotes. -/
def needsBackslash (c : Char) : Bool := c == '"' || c == '\\'

/-- A text as it stands between double quotes. -/
def escape (text : List Char) : List Char :=
  text.flatMap fun c => if needsBackslash c then ['\\', c] else [c]

/-- A text in double quotes. -/
def quote (text : String) : String :=
  String.ofList ('"' :: escape text.toList ++ ['"'])

@[simp] theorem escape_nil : escape [] = [] := rfl

theorem escape_cons (c : Char) (text : List Char) :
    escape (c :: text) = (if needsBackslash c then ['\\', c] else [c]) ++ escape text := rfl

@[simp] theorem escape_append (left right : List Char) :
    escape (left ++ right) = escape left ++ escape right :=
  List.flatMap_append

@[simp] theorem toList_quote (text : String) :
    (quote text).toList = '"' :: (escape text.toList ++ ['"']) :=
  String.toList_ofList

/-- A character at the end of a text stands before what is appended to both. -/
theorem push_append_ofList (text : String) (c : Char) (more : List Char) :
    text.push c ++ String.ofList more = text ++ String.ofList (c :: more) := by
  simp [← String.toList_inj]

end SearchCriteria.Text
