import SearchCriteria.Limits
import SearchCriteria.Log
import SearchCriteria.Store
import SearchCriteria.Text.Utf8
import SearchCriteria.Toml.Document

/-!
# Limits in a file

The limits may be kept in a TOML file, one key for each. Keys that are missing, like
a file that is missing, mean the usual limits.
-/

namespace SearchCriteria

/-- Why limits could not be loaded or saved. -/
inductive FileError where
  /-- The file could not be reached. -/
  | inaccessible
  /-- The file does not hold limits. -/
  | unusable
  /-- The limits have no form in a file. -/
  | unwritable
  deriving DecidableEq

/-- The sentence that tells the cause. -/
def FileError.message : FileError → String
  | inaccessible => "IO error"
  | unusable => "Configuration error: Failed to parse config"
  | unwritable => "Configuration error: Failed to serialize config"

namespace Limits

/-- The key of the limit on nesting. -/
def nestingKey : String := "max_nesting_depth"

/-- The key of the limit on terms. -/
def termsKey : String := "max_terms"

/-- The greatest number that a file can hold. -/
def greatestInFile : Nat := 0x7fffffffffffffff

/-- The limits as a document; they must be numbers that a file can hold. -/
def toToml (limits : Limits) : Option String :=
  if limits.maxNestingDepth ≤ greatestInFile ∧ limits.maxTerms ≤ greatestInFile then
    some (nestingKey ++ " = " ++ limits.maxNestingDepth.repr ++ "\n" ++
      termsKey ++ " = " ++ limits.maxTerms.repr ++ "\n")
  else none

/-- The number that a key stands for, or the usual one where the key is missing. -/
def limitAt (entries : Toml.Entries) (key : String) (usual : Nat) : Option Nat :=
  match entries.find? key with
  | none => some usual
  | some (.integer number) => if 0 ≤ number then some number.toNat else none
  | some _ => none

/-- The limits in a document. Other keys mean nothing. -/
def ofToml? (text : String) : Option Limits := do
  let document ← Toml.Document.parse? text
  let maxNestingDepth ← limitAt document.root nestingKey Limits.usual.maxNestingDepth
  let maxTerms ← limitAt document.root termsKey Limits.usual.maxTerms
  return { maxNestingDepth, maxTerms }

/-- The limits in a file, with what is worth logging. -/
def loadFile (store : Store) (path : FilePath) : Except FileError Limits × List LogLine :=
  let shown := Text.Utf8.lossyText path.bytes
  match store.resolve path with
  | none =>
    (.ok usual, [⟨.debug, "no parser config at " ++ shown ++ ", using defaults"⟩])
  | some place =>
    match (store.read place).bind Text.Utf8.text? with
    | none => (.error .inaccessible, [])
    | some text =>
      match ofToml? text with
      | some limits => (.ok limits, [])
      | none => (.error .unusable, [⟨.warn, "unusable parser config at " ++ shown⟩])

/-- Saves the limits to a file, and tells the store behind the attempt. Limits without a form
in a file are refused before the store is touched. Else the file is opened, which empties it,
and then it is written, which may end early. -/
def saveFile (limits : Limits) (store : Store) (path : FilePath) :
    Except FileError Unit × Store :=
  match limits.toToml with
  | none => (.error .unwritable, store)
  | some text =>
    let content := Text.Utf8.encode text
    match store.create path with
    | none => (.error .inaccessible, store)
    | some (place, created) =>
      let outcome := if created.hasRoom place content then .ok () else .error .inaccessible
      (outcome, created.fill place content)

end Limits

end SearchCriteria
