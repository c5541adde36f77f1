import Speedtest.Http.Mount

/-!
# Endpoints

The five endpoints of the service, with their paths and the methods that they answer to.
-/
namespace Speedtest.Service

/-- What the service answers on. -/
inductive Endpoint where
  | empty
  | garbage
  | getIp
  | telemetry
  | stats
  deriving DecidableEq

namespace Endpoint

def all : List Endpoint := [.empty, .garbage, .getIp, .telemetry, .stats]

def path : Endpoint → String
  | .empty => "/empty"
  | .garbage => "/garbage"
  | .getIp => "/getIP"
  | .telemetry => "/results/telemetry"
  | .stats => "/stats"

/-- The name that an endpoint is counted under. -/
def label : Endpoint → String
  | .empty => "empty"
  | .garbage => "garbage"
  | .getIp => "getIP"
  | .telemetry => "telemetry"
  | .stats => "stats"

/-- The methods that an endpoint answers to; one of them takes every method. -/
def methods? : Endpoint → Option (List String)
  | .empty => none
  | .garbage => some ["GET", "HEAD"]
  | .getIp => some ["GET", "HEAD"]
  | .telemetry => some ["POST"]
  | .stats => some ["GET", "HEAD", "POST"]

def answersTo (e : Endpoint) (method : String) : Bool := e.methods?.all (·.contains method)

/-- The methods in the form in which they are told. -/
def allowed? (e : Endpoint) : Option String := e.methods?.map fun ms => ",".intercalate ms

/-- The endpoint of a path under the mount point. -/
def ofPath? (path : String) : Option Endpoint :=
  all.find? fun e => (Http.Paths.aliases e.path).contains path

def find? (m : Http.Mount) (path : String) : Option Endpoint := (m.under? path).bind ofPath?

end Endpoint
end Speedtest.Service
