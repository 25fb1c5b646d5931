import SearchCriteria.Toml.Statement

/-!
# Documents

The statements of a document in order make its tree of tables.
-/

namespace SearchCriteria.Toml

/-- The part of a document that has been read. -/
structure Document where
  /-- The table that holds all others. -/
  root : Entries := []
  /-- The table to which the next keys belong. -/
  current : List String := []

/-- What a statement makes of a document. -/
def Document.add (document : Document) : Statement → Option Document
  | .assign path value => do
    let root ← Entries.descend (Entries.assign path.key value true path.tables)
      document.current document.root
    return { document with root }
  | .table path => do
    let root ← Entries.descend (Entries.beginTable path.key) path.tables document.root
    return ⟨root, path.tables ++ [path.key]⟩
  | .element path => do
    let root ← Entries.descend (Entries.beginElement path.key) path.tables document.root
    return ⟨root, path.tables ++ [path.key]⟩

/-- The document of a text. -/
def Document.parse? (text : String) : Option Document := do
  let statements ← statements? text.toList
  statements.foldlM Document.add {}

end SearchCriteria.Toml
