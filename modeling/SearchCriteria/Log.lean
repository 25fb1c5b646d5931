import SearchCriteria.Reader
import SearchCriteria.Text.Visible

/-!
# Log lines

What is worth telling beside an answer is returned with it, as a list of lines.
-/

namespace SearchCriteria

/-- How urgent a line is. -/
inductive LogLevel where
  | debug
  | warn
  deriving DecidableEq

/-- The level as a word. -/
def LogLevel.name : LogLevel → String
  | debug => "debug"
  | warn => "warn"

/-- A line of a log. -/
structure LogLine where
  level : LogLevel
  message : String
  deriving DecidableEq

/-- Reads a query and tells what was read and why it was refused. -/
def Query.parseLogged (limits : Limits) (text : String) :
    Except ParseError Query × List LogLine :=
  let began : LogLine := ⟨.debug, "parsing search criteria: " ++ Text.visible text⟩
  match Query.parse limits text with
  | .ok query => (.ok query, [began])
  | .error cause =>
    (.error cause, [began,
      ⟨.debug, "rejected search criteria " ++ Text.visible text ++ ": " ++ cause.message⟩])

end SearchCriteria
