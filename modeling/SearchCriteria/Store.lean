import SearchCriteria.Text.Split

/-!
# Files and directories

A store tells what lies at each place below its top, what may be done there, and for how
much there is room. Paths are bytes, as names need not be texts; they lead from the top, step
by step, through directories. There are no links: each file lies at one place.
-/

namespace SearchCriteria

/-- Where something lies: the names on the way from the top. -/
abbrev Place := List (List UInt8)

/-- What lies at a place. -/
inductive Entry where
  | file (content : List UInt8)
  | directory
  /-- A device keeps nothing of what is written to it; what is read from it is its own. -/
  | device (given : List UInt8)
  deriving DecidableEq

/-- What may be done at a place. Where nothing lies yet, it is what may be done with a file
that is created there. -/
structure Access where
  /-- Whether a file may be read. -/
  read : Bool := true
  /-- Whether a file may be written; for a directory, whether files may be created in it. -/
  write : Bool := true
  /-- Whether names may be looked up in a directory. -/
  search : Bool := true

/-- Files and directories. Of several entries for a place the first counts. -/
structure Store where
  entries : List (Place × Entry) := []
  /-- What may be done at a place. -/
  access : Place → Access := fun _ => {}
  /-- How many bytes of a content can be written at a place, if not all. -/
  room : Place → Option Nat := fun _ => none

/-- A path: names with slashes between them. -/
structure FilePath where
  bytes : List UInt8
  deriving DecidableEq

namespace FilePath

/-- The byte of the slash. -/
def slash : UInt8 := 0x2f

/-- The name of a directory inside itself. -/
def here : List UInt8 := [0x2e]

/-- The name of the directory around a directory. -/
def above : List UInt8 := [0x2e, 0x2e]

/-- The most bytes that a path may have. -/
def longestPath : Nat := 4095

/-- The most bytes that a name may have. -/
def longestName : Nat := 255

/-- Whether a path begins with a slash. -/
def isAbsolute (path : FilePath) : Bool := path.bytes.head? = some slash

/-- The second path, taken from the end of the first unless it is absolute. -/
def join (base path : FilePath) : FilePath :=
  if path.isAbsolute then path
  else if base.bytes.getLast?.all (· = slash) then ⟨base.bytes ++ path.bytes⟩
  else ⟨base.bytes ++ slash :: path.bytes⟩

/-- The steps along a path. -/
def steps (path : FilePath) : List (List UInt8) := splitAtEach slash path.bytes

/-- Whether a path can lead anywhere, whatever there is: it is not empty, it has no zero
byte, and neither the path nor a name in it is too long. -/
def isAdmissible (path : FilePath) : Bool :=
  path.bytes ≠ [] ∧ 0 ∉ path.bytes ∧ path.bytes.length ≤ longestPath ∧
    ∀ name ∈ path.steps, name.length ≤ longestName

end FilePath

namespace Store

/-- What lies at a place. The top is a directory. -/
def find? (store : Store) : Place → Option Entry
  | [] => some .directory
  | place => store.entries.lookup place

/-- Whether the step stays in the directory. -/
def isStill (step : List UInt8) : Bool := step = [] ∨ step = FilePath.here

/-- Whether a step may be made at a place: in a directory, in which names may be looked up
unless the step is the empty one between two slashes. -/
def mayStep (store : Store) (place : Place) (step : List UInt8) : Bool :=
  store.find? place = some .directory ∧ (step = [] ∨ (store.access place).search)

/-- The place that is reached by one step out of a directory. -/
def step (store : Store) (place : Place) (step : List UInt8) : Option Place :=
  if store.mayStep place step then
    if isStill step then some place
    else if step = FilePath.above then some place.dropLast
    else
      let next := place ++ [step]
      if (store.find? next).isSome then some next else none
  else none

/-- The place to which a path leads. -/
def resolve (store : Store) (path : FilePath) : Option Place :=
  if path.isAdmissible then path.steps.foldlM store.step [] else none

/-- What lies where a path leads. -/
def look (store : Store) (path : FilePath) : Option Entry :=
  (store.resolve path).bind store.find?

/-- The place to which a path leads without its last step. -/
def parent (store : Store) (path : FilePath) : Option Place :=
  path.steps.dropLast.foldlM store.step []

/-- The place of the file that a path names, whether it is there or not: its last
name in the directory to which the other steps lead. -/
def filePlace (store : Store) (path : FilePath) : Option Place := do
  let name ← path.steps.getLast?
  if !path.isAdmissible ∨ isStill name ∨ name = FilePath.above then none
  let directory ← store.parent path
  if store.mayStep directory name then some (directory ++ [name]) else none

/-- Puts an entry at a place. -/
def put (store : Store) (place : Place) (entry : Entry) : Store :=
  { store with entries := (place, entry) :: store.entries }

/-- Puts a content at a place, in place of what was there. A device keeps none of it. -/
def putContent (store : Store) (place : Place) (content : List UInt8) : Store :=
  match store.find? place with
  | some (.device _) => store
  | _ => store.put place (.file content)

/-- What can be read at a place. -/
def read (store : Store) (place : Place) : Option (List UInt8) :=
  if (store.access place).read then
    match store.find? place with
    | some (.file content) => some content
    | some (.device given) => some given
    | _ => none
  else none

/-- Whether a place can be written to: a file or a device that may be written, or a new
file in a directory in which files may be created. -/
def mayWrite (store : Store) (place : Place) : Bool :=
  match store.find? place with
  | none => (store.access place.dropLast).write
  | some .directory => false
  | some _ => (store.access place).write

/-- Opens the file that a path names in order to write it anew. From then on it is there, and
it is empty. -/
def create (store : Store) (path : FilePath) : Option (Place × Store) := do
  let place ← store.filePlace path
  if store.mayWrite place then some (place, store.putContent place []) else none

/-- Whether there is room for all of a content at a place. -/
def hasRoom (store : Store) (place : Place) (content : List UInt8) : Bool :=
  (store.room place).all (content.length ≤ ·)

/-- The beginning of a content for which there is room at a place. -/
def fitting (store : Store) (place : Place) (content : List UInt8) : List UInt8 :=
  match store.room place with
  | none => content
  | some bytes => content.take bytes

/-- Writes a content at a place, as much of it as there is room for. -/
def fill (store : Store) (place : Place) (content : List UInt8) : Store :=
  store.putContent place (store.fitting place content)

/-- Whether what is written at a place can be read from there. -/
structure ReadsBack (store : Store) (place : Place) : Prop where
  permitted : (store.access place).read
  notDevice : ∀ given, store.find? place ≠ some (.device given)

/-- Makes the directory that a path names, and those on the way. -/
def makeDirectories (store : Store) (path : FilePath) : Store :=
  (path.steps.foldl (fun (place, store) name =>
    if isStill name then (place, store)
    else if name = FilePath.above then (place.dropLast, store)
    else
      let next := place ++ [name]
      (next, if (store.find? next).isSome then store else store.put next .directory))
    (([] : Place), store)).2

/-- The store in which the file that a path names has been created or emptied and then filled,
if there has been room for all of the content. -/
def write (store : Store) (path : FilePath) (content : List UInt8) : Option Store := do
  let (place, created) ← store.create path
  if created.hasRoom place content then some (created.fill place content) else none

@[simp] theorem find?_nil (store : Store) : store.find? [] = some .directory := rfl

end Store

end SearchCriteria
