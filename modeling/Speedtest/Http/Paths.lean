import Speedtest.Text.Scan

/-!
# Paths

An endpoint answers on four paths: its own, the same behind the prefix of older frontends, and each of the
two with the ending of a script. All of them may be mounted under a base.
-/
namespace Speedtest.Http.Paths

/-- What older frontends put in front of a path. -/
def legacyLead : String := "/backend"

/-- The paths that an endpoint answers on. -/
def aliases (path : String) : List String :=
  [path, legacyLead ++ path, path ++ ".php", legacyLead ++ path ++ ".php"]

/-- The place that a base mounts the paths at, with one slash in front and none behind; the root has
none. -/
def mountPoint (base : String) : Option String :=
  match Text.trimBy (· == '/') base.toList with
  | [] => none
  | s => some (String.ofList ('/' :: s))

end Speedtest.Http.Paths
