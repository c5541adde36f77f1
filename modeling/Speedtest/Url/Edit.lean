import Speedtest.Form
import Speedtest.Url.Parser

/-!
# Extending a locator

A locator with a path of segments can be extended by a segment and by a parameter of its query. An empty
last segment, which a slash at the end leaves, is dropped before a segment is added.
-/
namespace Speedtest.Url

/-- A path without the empty segment that a slash at its end leaves. -/
def dropEmptyLast (path : List (List Char)) : List (List Char) :=
  match path with
  | [] | [_] => path
  | _ => if path.getLast? = some [] then path.dropLast else path

/-- A path with one more segment; the single slash gives way to it. Tabs and line ends in the segment are
dropped, and a dot or a double dot adds nothing. -/
def pushSegment (scheme : List Char) (path : List (List Char)) (segment : List Char) :
    List (List Char) :=
  if segment = ['.'] ∨ segment = ['.', '.'] then path
  else
    let plain := segment.filter fun c => c != '\t' && c != '\n' && c != '\r'
    let keep := if isSpecial scheme then Escape.webSegment else Escape.segment
    let path := if path = [[]] then [] else path
    extend (isFile scheme) path (Escape.apply keep plain) true

/-- The locator below a locator at the given segments, unless its path is flat. -/
def below? (u : Url) (segments : List (List Char)) : Option Url :=
  match u.path with
  | .flat _ => none
  | .segments path =>
    some { u with path := .segments (segments.foldl (pushSegment u.scheme) (dropEmptyLast path)) }

/-- The locator with one more parameter in its query. -/
def withParameter (u : Url) (name value : String) : Url :=
  let known := u.query.getD []
  let separator := if known.isEmpty then [] else ['&']
  { u with query := some (known ++ separator ++ Form.writePair (name, value)) }

end Speedtest.Url
