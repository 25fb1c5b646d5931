/-!
# Names and literals in SQL

A column name stands between double quotes and a text literal between single
ones. A quote of the enclosing kind inside is written twice, and no other
character is changed.
-/

namespace SearchCriteria.Sql

/-- The text with each occurrence of the mark written twice. -/
def double (mark : Char) (text : List Char) : List Char :=
  text.flatMap fun c => if c = mark then [c, c] else [c]

/-- The text between two marks. -/
def enclose (mark : Char) (text : String) : String :=
  String.ofList (mark :: double mark text.toList ++ [mark])

/-- A column name. -/
def quoteColumn (name : String) : String := enclose '"' name

/-- A text literal. -/
def quoteLiteral (text : String) : String := enclose '\'' text

@[simp] theorem double_nil (mark : Char) : double mark [] = [] := rfl

theorem double_cons (mark c : Char) (text : List Char) :
    double mark (c :: text) = (if c = mark then [c, c] else [c]) ++ double mark text := rfl

@[simp] theorem double_append (mark : Char) (left right : List Char) :
    double mark (left ++ right) = double mark left ++ double mark right :=
  List.flatMap_append

@[simp] theorem toList_enclose (mark : Char) (text : String) :
    (enclose mark text).toList = mark :: (double mark text.toList ++ [mark]) :=
  String.toList_ofList

end SearchCriteria.Sql
