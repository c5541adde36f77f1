import Speedtest.Url.Host

/-!
# Locators

An absolute locator is a scheme, perhaps an authority, a path, and perhaps a query and a fragment. The
parts are kept as they are written, with escapes in place. A path is a list of segments, or, without an
authority and without a slash at its front, a flat text that cannot be extended.
-/
namespace Speedtest

namespace Url

/-- Who answers: the credentials without the at sign behind them, the host and a port that is not the
scheme's own. -/
structure Authority where
  credentials : List Char
  host : Host
  port : Option Nat
  deriving DecidableEq

/-- A path. The path of segments `[""]` is a single slash. -/
inductive Path where
  | flat (text : List Char)
  | segments (list : List (List Char))
  deriving DecidableEq

end Url

/-- An absolute locator. -/
structure Url where
  scheme : List Char
  authority : Option Url.Authority
  path : Url.Path
  query : Option (List Char)
  fragment : Option (List Char)
  deriving DecidableEq

namespace Url

/-- Whether the scheme is one of the web's, whose locators always have a host and a path. -/
def isWeb (scheme : List Char) : Bool :=
  scheme ∈ ["http", "https", "ws", "wss", "ftp"].map String.toList

def isFile (scheme : List Char) : Bool := scheme == "file".toList

/-- Whether a backslash counts as a slash. -/
def isSpecial (scheme : List Char) : Bool := isWeb scheme || isFile scheme

def ownPort? (scheme : List Char) : Option Nat :=
  match String.ofList scheme with
  | "http" | "ws" => some 80
  | "https" | "wss" => some 443
  | "ftp" => some 21
  | _ => none

def Authority.text (a : Authority) : List Char :=
  (if a.credentials.isEmpty then [] else a.credentials ++ ['@']) ++ a.host.text ++
    match a.port with
    | some n => ':' :: Text.decimal n
    | none => []

def Path.text : Path → List Char
  | .flat s => s
  | .segments list => list.flatMap ('/' :: ·)

/-- Path and query, which is what a request asks for. -/
def targetText (u : Url) : List Char := u.path.text ++ (u.query.map ('?' :: ·)).getD []

/-- Path, query and fragment. -/
def tailText (u : Url) : List Char := u.targetText ++ (u.fragment.map ('#' :: ·)).getD []

/-- The text of the locator. Without an authority a path must not start with two slashes, so a dot is
put between them. -/
def text (u : Url) : List Char :=
  let lead := match u.authority, u.path with
    | some a, _ => '/' :: '/' :: a.text
    | none, .segments ([] :: _ :: _) => ['/', '.']
    | none, _ => []
  u.scheme ++ ':' :: lead ++ u.tailText

end Url
end Speedtest
