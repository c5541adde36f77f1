import Speedtest.CommandLine.Words

/-!
# The command line of the server

The server takes one option, the file with its settings.
-/
namespace Speedtest.CommandLine.Serve

def configOption : ValueOption := ⟨'c', "config", false⟩

def grammar : Grammar := ⟨[configOption], [], []⟩

/-- What the command line asks for. -/
inductive Request where
  | help
  | serve (settingsFile : Option String)
  deriving DecidableEq

def read (words : List String) : Except Misuse Request :=
  (grammar.read words).map fun
    | some r => .serve (r.value? configOption.name)
    | none => .help

def help : String :=
  "Speed test backend server\n\nUsage: speedtest-backend [OPTIONS]\n\nOptions:\n" ++
  "  -c, --config <CONFIG>  Path to settings.toml; SPEEDTEST_* environment variables override it\n" ++
  "  -h, --help             Print help\n"

end Speedtest.CommandLine.Serve
