import Speedtest.CommandLine.Words

/-!
# The command line of the statistics client

The client takes the base of a server and the password of its statistics, and shows the last results or the
one with an identifier. The password may come from the environment instead.
-/
namespace Speedtest.CommandLine.Stats

def urlOption : ValueOption := ⟨'u', "url", true⟩

def passwordOption : ValueOption := ⟨'p', "password", true⟩

def passwordVariable : String := "SPEEDTEST_STATISTICS_PASSWORD"

/-- The server that is asked when none is named. -/
def defaultUrl : String := "http://localhost:8989"

def grammar : Grammar := ⟨[urlOption, passwordOption], [], ["last", "show", "help"]⟩

def lastGrammar : Grammar := ⟨[], [], []⟩

def showGrammar : Grammar := ⟨[], ["ID"], []⟩

/-- What to show. -/
inductive Subject where
  | last
  | single (id : String)
  deriving DecidableEq

/-- What help is wanted about. -/
inductive Topic where
  | all
  | last
  | single
  | help
  deriving DecidableEq

/-- What the command line asks for. -/
inductive Request where
  | help (topic : Topic)
  | fetch (url password : String) (subject : Subject)
  deriving DecidableEq

/-- What help is wanted about by the name of a command. -/
def Topic.ofName? : String → Option Topic
  | "last" => some .last
  | "show" => some .single
  | "help" => some .help
  | _ => none

/-- What help is wanted about when these words follow the command for it. -/
def readTopic : List String → Except Misuse Topic
  | [] => .ok .all
  | name :: rest =>
    match Topic.ofName? name, rest with
    | some topic, [] => .ok topic
    | some _, word :: _ => .error (.unknownCommand word)
    | none, _ => .error (.unknownCommand name)

/-- What a command asks to show, or the help that it asks for. -/
def readCommand (name : String) (words : List String) : Except Misuse (Topic ⊕ Subject) :=
  if name = "help" then (readTopic words).map .inl
  else if name = "last" then
    (lastGrammar.read words).map fun
      | some _ => .inr .last
      | none => .inl .last
  else
    (showGrammar.read words).map fun
      | some r => .inr (.single (r.words.headD ""))
      | none => .inl .single

def read (words : List String) (environment : List (String × String)) : Except Misuse Request := do
  let some r ← grammar.read words | return .help .all
  let some (name, rest) := r.command | throw .missingCommand
  match ← readCommand name rest with
  | .inl topic => return .help topic
  | .inr subject =>
    let some password := r.value? passwordOption.name <|> environment.lookup passwordVariable
      | throw (.missingOption passwordOption.name)
    return .fetch ((r.value? urlOption.name).getD defaultUrl) password subject

def help (environment : List (String × String)) : Topic → String
  | .all =>
    "Read stored speed test results\n\n" ++
    "Usage: speedtest-stats [OPTIONS] --password <PASSWORD> <COMMAND>\n\n" ++
    "Commands:\n  last  Show the most recent results\n" ++
    "  show  Show a single result by its telemetry id\n" ++
    "  help  Print this message or the help of the given subcommand(s)\n\n" ++
    "Options:\n  -u, --url <URL>            Base URL of the backend, including any url_base " ++
    "[default: " ++ defaultUrl ++ "]\n" ++
    "  -p, --password <PASSWORD>  [env: " ++ passwordVariable ++ "=" ++
    (environment.lookup passwordVariable).getD "" ++ "]\n" ++
    "  -h, --help                 Print help\n"
  | .last =>
    "Show the most recent results\n\nUsage: speedtest-stats --password <PASSWORD> last\n\n" ++
    "Options:\n  -h, --help  Print help\n"
  | .single =>
    "Show a single result by its telemetry id\n\n" ++
    "Usage: speedtest-stats --password <PASSWORD> show <ID>\n\n" ++
    "Arguments:\n  <ID>  \n\nOptions:\n  -h, --help  Print help\n"
  | .help =>
    "Print this message or the help of the given subcommand(s)\n\n" ++
    "Usage: speedtest-stats --password <PASSWORD> help [COMMAND]...\n\n" ++
    "Arguments:\n  [COMMAND]...  Print help for the subcommand(s)\n"

end Speedtest.CommandLine.Stats
