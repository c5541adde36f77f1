import Speedtest.Files
import Speedtest.Settings.Environment
import Speedtest.Settings.Validation

/-!
# Loading settings

Settings come from a file, from the environment over it, and from the values that the service ships with
below it. A file that is asked for has to be there; without one the usual file is read when it is there.
-/
namespace Speedtest.Settings

/-- The file that is read when no other is asked for. -/
def usualFile : String := "settings.toml"

/-- Why there are no settings. -/
inductive LoadError where
  | unreadable (name : String) (fault : Files.Fault)
  | malformed
  | invalid (problems : List Problem)

def LoadError.message : LoadError → String
  | .unreadable name fault => "IO error reading " ++ name ++ ": " ++ fault.message
  | .malformed => "Parse error"
  | .invalid problems => "Validation failed: " ++ ", ".intercalate (problems.map Problem.message)

def readFile (files : Files) (name : String) : Except LoadError String :=
  match files.readText name with
  | .ok content => .ok content
  | .error fault => .error (.unreadable name fault)

/-- The text of the file that is asked for, or else of the usual one when it is there. -/
def content (files : Files) : Option String → Except LoadError String
  | some name => readFile files name
  | none => if files.has usualFile then readFile files usualFile else .ok ""

/-- The settings, when there is no problem with them. -/
def checked (s : Settings) : Except LoadError Settings :=
  if s.problems.isEmpty then .ok s else .error (.invalid s.problems)

/-- The settings of a text and of the environment over it, read and checked. -/
def ofContent (environment : List (String × String)) (content : String) : Except LoadError Settings :=
  match ofText? content environment with
  | some s => s.checked
  | none => .error .malformed

def load (files : Files) (name : Option String) (environment : List (String × String)) :
    Except LoadError Settings :=
  (content files name).bind (ofContent environment)

end Speedtest.Settings
