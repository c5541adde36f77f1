import Speedtest.Http.Headers
import Speedtest.Text.Scan
import Speedtest.Text.Utf8

/-!
# Request targets

What a request asks for is a path and, behind a question mark, a query. It is written as the two alone, as
a whole locator with scheme and authority, as an authority alone, or as an asterisk. Whatever follows a
number sign is passed over. Only the path and the query are kept; an authority alone has no path.
-/
namespace Speedtest.Http

/-- The path of a request and its query. -/
structure Target where
  path : String
  query : Option String
  deriving DecidableEq

namespace Target

def queryBytes (t : Target) : Option Bytes := t.query.map fun q => Text.Utf8.encode q.toList

/-- The longest target in bytes. -/
def maxLength : Nat := 65534

def isPathChar (c : Char) : Bool :=
  0x20 < c.toNat && c ∉ ['#', '<', '>', '?', Char.ofNat 0x60]

def isQueryChar (c : Char) : Bool := 0x20 < c.toNat && c ∉ ['"', '#', '<', '>']

def isAuthorityChar (c : Char) : Bool :=
  Text.isAsciiLetter c || Text.isAsciiDigit c || c ∈ "!$%&'()*+,-.:;=@[]_~".toList

/-- Path and query from the text behind the authority. -/
def ofPathText? (s : List Char) : Option Target :=
  let written := s.takeWhile (· != '#')
  let path := written.takeWhile (· != '?')
  let query := (written.dropWhile (· != '?')).drop 1
  if path.all isPathChar && query.all isQueryChar then
    some {
      path := if path.isEmpty then "/" else String.ofList path
      query := if written.contains '?' then some (String.ofList query) else none }
  else none

/-- What has been seen of an authority: colons and percent signs since the user and the brackets ended, and
the brackets. -/
structure Authority where
  colons : Nat := 0
  percent : Bool := false
  opened : Bool := false
  closed : Bool := false
  deriving DecidableEq

/-- What has been seen after one more character, if it may stand there. -/
def Authority.step? (a : Authority) (c : Char) : Option Authority :=
  if !isAuthorityChar c then none
  else match c with
    | ':' => if 8 ≤ a.colons then none else some { a with colons := a.colons + 1 }
    | '[' => if a.percent || a.opened then none else some { a with opened := true }
    | ']' =>
      if !a.opened || a.closed then none
      else some { a with closed := true, colons := 0, percent := false }
    | '@' => some { a with colons := 0, percent := false }
    | '%' => some { a with percent := true }
    | _ => some a

def isAuthority (s : List Char) : Bool :=
  match s.foldlM Authority.step? {} with
  | some a => a.opened == a.closed && a.colons ≤ 1 && !a.percent && s.getLast? != some '@'
  | none => false

def isSchemeChar (c : Char) : Bool :=
  Text.isAsciiLetter c || Text.isAsciiDigit c || c ∈ ['+', '-', '.']

/-- The text behind the scheme and its slashes. -/
def afterScheme? (s : List Char) : Option (List Char) :=
  if (s.takeWhile isSchemeChar).length ≤ 64 then
    Text.dropLead? "://".toList (s.dropWhile isSchemeChar)
  else none

def endsAuthority (c : Char) : Bool := c == '/' || c == '?' || c == '#'

/-- A target that does not start with a slash. -/
def ofFullText? (s : List Char) : Option Target :=
  match afterScheme? s with
  | some rest =>
    let authority := rest.takeWhile (!endsAuthority ·)
    if isAuthority authority && !authority.isEmpty then
      ofPathText? (rest.dropWhile (!endsAuthority ·))
    else none
  | none => if isAuthority s && !s.isEmpty then some ⟨"", none⟩ else none

def ofText? (text : String) : Option Target :=
  if maxLength < text.utf8ByteSize then none
  else match text.toList with
    | ['*'] => some ⟨"*", none⟩
    | '/' :: s => ofPathText? ('/' :: s)
    | s => ofFullText? s

end Target
end Speedtest.Http
