/-!
# Texts on one line

For a log a text is shown in double quotes on one line, with escapes for the
characters that would not be seen or would end the text.
-/

namespace SearchCriteria.Text

/-- Whether a character controls a device instead of being shown. -/
def isControl (c : Char) : Bool := c.toNat < 0x20 || (0x7f ≤ c.toNat && c.toNat < 0xa0)

/-- The number of a character in lower-case hexadecimal digits between braces. -/
def codePoint (c : Char) : List Char :=
  '\\' :: 'u' :: '\x7b' :: Nat.toDigits 16 c.toNat ++ ['\x7d']

/-- A character as it is shown. -/
def visibleChar (c : Char) : List Char :=
  match c with
  | '"' => ['\\', '"']
  | '\\' => ['\\', '\\']
  | '\t' => ['\\', 't']
  | '\n' => ['\\', 'n']
  | '\r' => ['\\', 'r']
  | '\x00' => ['\\', '0']
  | _ => if isControl c then codePoint c else [c]

/-- A text as it is shown. -/
def visible (text : String) : String :=
  String.ofList ('"' :: text.toList.flatMap visibleChar ++ ['"'])

end SearchCriteria.Text
