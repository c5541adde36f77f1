import Speedtest.Settings.Table

/-!
# Settings from the environment

A variable whose name is `SPEEDTEST_` and the name of a setting, in whatever case, overrides the setting.
The value of a text is taken as it is; any other value is read as a value of a document, and is a text
when it is none. The last variable for a setting wins.
-/
namespace Speedtest.Settings

def variableLead : String := "SPEEDTEST_"

/-- Lower case of the letters that names of settings are made of. The Kelvin sign has the lower case of
the letter K. -/
def lowerName (s : List Char) : String :=
  String.ofList (s.map fun c => if c = Char.ofNat 0x212A then 'k' else Text.asciiLower c)

def settingNamed? (variableName : String) : Option String :=
  (Text.dropLead? variableLead.toList variableName.toList).map lowerName

/-- A value of a document, or the text itself when it is none. -/
def readValue (raw : String) : Toml.Value :=
  match (Toml.read? ("v = ".toList ++ raw.toList)).bind fun t => t.get? "v" with
  | some v => v
  | none => .text raw

def variableValue (name raw : String) : Toml.Value :=
  if textNames.contains name then .text raw else readValue raw

def applyVariable (t : Toml.Table) (v : String × String) : Toml.Table :=
  match settingNamed? v.1 with
  | some name => t.insert name (variableValue name v.2)
  | none => t

def ofText? (content : String) (environment : List (String × String)) : Option Settings := do
  let t ← Toml.read? content.toList
  ofTable? (environment.foldl applyVariable t)

end Speedtest.Settings
