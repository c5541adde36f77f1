import Speedtest.Client.Query
import Speedtest.Client.Report
import Speedtest.CommandLine.Serve
import Speedtest.Serving.Startup

/-!
# The two programs

The server reads its command line, loads its settings, starts up and serves until it is told to stop. The
statistics client reads its command line and asks one question. Whatever goes wrong before that ends a
program with a message and a code: 2 for a command line that is wrong, 1 for anything else, and 101 for a
crash.
-/
namespace Speedtest.Program

open Client (Report)

/-- What a process finds when it starts. -/
structure Surroundings where
  words : List String
  environment : List (String × String)
  files : Files
  machine : Serving.Machine
  inherited : List Serving.Socket
  reply : Http.Reply

/-- What a program comes to: it ends, or it goes on with something. -/
inductive Course (α : Type) where
  | ends (report : Report)
  | goesOn (a : α)

def misused {α : Type} (m : CommandLine.Misuse) : Course α :=
  .ends ⟨"", "error: " ++ m.message ++ "\n", 2⟩

def helped {α : Type} (text : String) : Course α := .ends ⟨text, "", 0⟩

def crashed {α : Type} : Course α := .ends ⟨"", "", 101⟩

def startServer (w : Surroundings) (chunk : Bytes) (s : Settings) : Course Serving.Started :=
  match Serving.startUp w.machine w.files w.reply chunk w.inherited s with
  | .done started => .goesOn started
  | .failed e => .ends (.failed e.message)
  | .crashed => crashed

/-- The server, with the bytes that its downloads repeat. -/
def server (w : Surroundings) (chunk : Bytes) : Course Serving.Started :=
  match CommandLine.Serve.read w.words with
  | .error m => misused m
  | .ok .help => helped CommandLine.Serve.help
  | .ok (.serve name) =>
    match Settings.load w.files name w.environment with
    | .error e => .ends (.failed e.message)
    | .ok s => startServer w chunk s

/-- The message of a question that cannot be asked. -/
def faultMessage : Client.Fault → String
  | .badPassword => "failed to parse header value"
  | .badUrl fault => "builder error: " ++ fault.message
  | .badScheme => "builder error: URL scheme is not allowed"

/-- The statistics client, up to the question that it asks. -/
def stats (words : List String) (environment : List (String × String)) : Course Client.Query :=
  match CommandLine.Stats.read words environment with
  | .error m => misused m
  | .ok (.help topic) => helped (CommandLine.Stats.help environment topic)
  | .ok (.fetch url password subject) =>
    match Client.Query.build url password subject with
    | .ok q => .goesOn q
    | .error fault => .ends (.failed (faultMessage fault))

/-- The end of the statistics client after the server's reply. -/
def report : Http.Reply → Report
  | .answer status body complete => .ofAnswer status body complete
  | _ => .failed "error sending request"

end Speedtest.Program
