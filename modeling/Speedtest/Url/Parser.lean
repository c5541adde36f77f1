import Speedtest.Text.Scan
import Speedtest.Url.Basic
import Speedtest.Url.Escape

/-!
# Reading locators

The reader takes the absolute locators of the web's standard. Blanks around the text and tabs and line
ends inside it are dropped. Dot segments are resolved while the path is built.
-/
namespace Speedtest.Url

/-- Drops control characters and spaces at both ends, and tabs and line ends everywhere. -/
def clean (s : List Char) : List Char :=
  (Text.trimBy (· ≤ ' ') s).filter fun c => c != '\t' && c != '\n' && c != '\r'

/-- The scheme in lower case and the text after its colon. -/
def readScheme? (s : List Char) : Option (List Char × List Char) :=
  match Text.cutAt? (· == ':') s with
  | some (c :: scheme, rest) =>
    let isMark (c : Char) : Bool :=
      Text.isAsciiLetter c || Text.isAsciiDigit c || c == '+' || c == '-' || c == '.'
    if Text.isAsciiLetter c && scheme.all isMark then
      some ((c :: scheme).map Text.asciiLower, rest)
    else none
  | _ => none

/-- The part before the first mark, and the part after it if the mark is there. -/
def splitOff (mark : Char) (s : List Char) : List Char × Option (List Char) :=
  match Text.cutAt? (· == mark) s with
  | some (before, after) => (before, some after)
  | none => (s, none)

/-- Whether a segment means the place itself. -/
def isDot (s : List Char) : Bool :=
  let s := String.ofList (s.map Text.asciiLower)
  s == "." || s == "%2e"

/-- Whether a segment means the place above. -/
def isDoubleDot (s : List Char) : Bool :=
  let s := String.ofList (s.map Text.asciiLower)
  s == ".." || s == ".%2e" || s == "%2e." || s == "%2e%2e"

/-- Whether a segment names a drive, as in `C:` or `C|`. -/
def isDrive (s : List Char) : Bool :=
  match s with
  | [c, mark] => Text.isAsciiLetter c && (mark == ':' || mark == '|')
  | _ => false

/-- The path above a path, which stops at a drive. -/
def above (file : Bool) (path : List (List Char)) : List (List Char) :=
  match path with
  | [drive] => if file && isDrive drive then path else []
  | _ => path.dropLast

/-- A path with one more segment. The last segment leaves an empty one behind when it is a dot or a
double dot. -/
def extend (file : Bool) (path : List (List Char)) (segment : List Char) (last : Bool) :
    List (List Char) :=
  if isDoubleDot segment then above file path ++ (if last then [[]] else [])
  else if isDot segment then path ++ (if last then [[]] else [])
  else if file && path.isEmpty && isDrive segment then [segment.take 1 ++ [':']]
  else path ++ [segment]

/-- The path that segments lead to, starting from a path. -/
def walk (file : Bool) (path : List (List Char)) : List (List Char) → List (List Char)
  | [] => path
  | [s] => extend file path s true
  | s :: rest => walk file (extend file path s false) rest

/-- The pieces of a path between its slashes. -/
def pieces (special : Bool) (s : List Char) : List (List Char) :=
  s.splitOnP fun c => c == '/' || (special && c == '\\')

/-- The path of a text with a slash at its front, or of the empty text. -/
def readPath (scheme s : List Char) : List (List Char) :=
  let special := isSpecial scheme
  match s with
  | [] => if special then [[]] else []
  | _ :: rest =>
    let path := walk (isFile scheme) [] ((pieces special rest).map (Escape.apply Escape.path))
    if isFile scheme then
      match path.dropWhile List.isEmpty with
      | [] => [[]]
      | path => path
    else path

/-- The name and the secret in front of the at sign, as they are written. -/
def readCredentials (s : List Char) : List Char :=
  let (name, secret) := splitOff ':' s
  let escape := Escape.apply Escape.credentials
  match secret with
  | some (c :: rest) => escape name ++ ':' :: escape (c :: rest)
  | _ => escape name

/-- The port of a text; one that the scheme has by itself is left out. -/
def readPort (scheme s : List Char) : Except Fault (Option Nat) :=
  match s with
  | [] => .ok none
  | _ => match Text.readDigits? s with
    | some n =>
      if 65535 < n then .error .badPort
      else .ok (if ownPort? scheme = some n then none else some n)
    | none => .error .badPort

/-- The host before the first colon outside brackets, and the text of the port after it. -/
def splitHost : (inside : Bool) → List Char → List Char × Option (List Char)
  | _, [] => ([], none)
  | inside, c :: s =>
    if c = ':' ∧ inside = false then ([], some s)
    else
      let inside := if c = '[' then true else if c = ']' then false else inside
      let (host, port) := splitHost inside s
      (c :: host, port)

/-- The authority of a text. `followed` says that something stands behind it. -/
def readAuthority (scheme s : List Char) (followed : Bool) : Except Fault Authority := do
  let web := isWeb scheme
  let (credentials, place) := match Text.cutAt? (· == '@') s.reverse with
    | some (after, before) => (some before.reverse, after.reverse)
    | none => (none, s)
  if credentials = some [] ∧ place.isEmpty ∧ followed then throw .emptyHost
  let written := readCredentials (credentials.getD [])
  let (host, port) := splitHost false place
  if host.isEmpty ∧ (web ∨ port.isSome ∨ !written.isEmpty) then throw .emptyHost
  let host ← if web then Host.readDomain host else Host.readName host
  return ⟨written, host, ← readPort scheme (port.getD [])⟩

/-- The text up to the first slash, and the text from it on. -/
def splitAuthority (special : Bool) (s : List Char) : List Char × List Char :=
  let inside (c : Char) : Bool := !(c == '/' || (special && c == '\\'))
  (s.takeWhile inside, s.dropWhile inside)

def readFile (s : List Char) : Except Fault (Authority × Path) := do
  let file := "file".toList
  let isSlash (c : Char) : Bool := c == '/' || c == '\\'
  let nowhere : Authority := ⟨[], .name [], none⟩
  match s with
  | a :: b :: rest =>
    if isSlash a && isSlash b then
      let (host, path) := splitAuthority true rest
      if isDrive host then return (nowhere, .segments (readPath file ('/' :: rest)))
      let path := readPath file (if path.isEmpty then ['/'] else path)
      if host.isEmpty then return (nowhere, .segments path)
      let host ← Host.readDomain host
      if host = .name "localhost".toList ∨ path.head?.any isDrive then
        return (nowhere, .segments path)
      return (⟨[], host, none⟩, .segments path)
    else return (nowhere, .segments (readPath file (if isSlash a then s else '/' :: s)))
  | [a] => return (nowhere, .segments (readPath file (if isSlash a then s else '/' :: s)))
  | [] => return (nowhere, .segments [[]])

/-- The authority and the path behind a scheme. -/
def readRest (scheme s : List Char) (followed : Bool) : Except Fault (Option Authority × Path) :=
  let special := isSpecial scheme
  if isWeb scheme then do
    let s := s.dropWhile fun c => c == '/' || c == '\\'
    let (place, path) := splitAuthority special s
    let authority ← readAuthority scheme place (followed || !path.isEmpty)
    return (some authority, .segments (readPath scheme path))
  else if isFile scheme then (readFile s).map fun (a, p) => (some a, p)
  else match Text.dropLead? ['/', '/'] s with
    | some s => do
      let (place, path) := splitAuthority special s
      let authority ← readAuthority scheme place (followed || !path.isEmpty)
      return (some authority, .segments (readPath scheme path))
    | none => match s with
      | '/' :: _ => .ok (none, .segments (readPath scheme s))
      | _ => .ok (none, .flat (Escape.apply Escape.flatPath s))

def ofText (s : List Char) : Except Fault Url := do
  let some (scheme, rest) := readScheme? (clean s) | throw .noScheme
  let (rest, fragment) := splitOff '#' rest
  let (rest, query) := splitOff '?' rest
  let (authority, path) ← readRest scheme rest (query.isSome || fragment.isSome)
  let escape := if isSpecial scheme then Escape.webQuery else Escape.query
  return {
    scheme, authority, path
    query := query.map (Escape.apply escape)
    fragment := fragment.map (Escape.apply Escape.fragment) }

end Speedtest.Url
