import SearchCriteria.Limits.File

/-!
# Where the limits are kept

The environment tells the file of the limits: directly, or by the directory for
settings, which lies in the home directory if it is not told either.
-/

namespace SearchCriteria

/-- The variables of the environment that tell where the limits are kept. -/
structure Environment where
  /-- The file itself. -/
  configFile : Option (List UInt8) := none
  /-- The directory for settings. -/
  configHome : Option (List UInt8) := none
  /-- The home directory. -/
  home : Option (List UInt8) := none

namespace Environment

/-- A path of characters below U+0080. -/
def asciiPath (text : String) : FilePath := ⟨Text.Utf8.encode text⟩

/-- The directory for settings. Only an absolute path tells it, and without a home
directory there is none. -/
def settingsDirectory (environment : Environment) : Option FilePath :=
  let told := environment.configHome.filter fun bytes => FilePath.isAbsolute ⟨bytes⟩
  match environment.home.filter (!·.isEmpty) with
  | none => none
  | some home => some (match told with
    | some bytes => ⟨bytes⟩
    | none => FilePath.join ⟨home⟩ (asciiPath ".config"))

/-- The file of the limits. A file that is told must have a path in UTF-8. -/
def limitsFile (environment : Environment) : Option FilePath :=
  match environment.configFile.filter fun bytes => (Text.Utf8.text? bytes).isSome with
  | some bytes => some ⟨bytes⟩
  | none => environment.settingsDirectory.map fun directory =>
    (directory.join (asciiPath "cds-criteria")).join (asciiPath "criteria.toml")

end Environment

/-- The limits that the environment tells, with what is worth logging. -/
def Limits.load (environment : Environment) (store : Store) :
    Except FileError Limits × List LogLine :=
  match environment.limitsFile with
  | some path => loadFile store path
  | none => (.ok usual, [])

end SearchCriteria
