import Speedtest.Text.Ascii

/-!
# Levels of diagnostics

The level that the configuration names sets what the service and its middleware report. A name that is
no level, in whatever case, stands for `info`.
-/
namespace Speedtest.Diagnostics

def levels : List String := ["trace", "debug", "info", "warn", "error", "off"]

def levelOf (name : String) : String :=
  let lower := String.ofList (name.toList.map Text.asciiLower)
  if levels.contains lower then lower else "info"

def directives (name : String) : String :=
  let level := levelOf name
  "speedtest_backend=" ++ level ++ ",tower_http=" ++ level

end Speedtest.Diagnostics
