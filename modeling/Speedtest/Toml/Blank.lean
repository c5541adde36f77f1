/-!
# Blanks, comments and line ends

What may stand between the parts of a document. A comment runs to the end of its line and holds no control
character but the tab.
-/
namespace Speedtest.Toml

/-- What a reader makes of the front of a text, and the text behind it. -/
abbrev Reader (α : Type) := List Char → Option (α × List Char)

/-- The text behind spaces and tabs. -/
def skipBlanks (s : List Char) : List Char := s.dropWhile fun c => c == ' ' || c == '\t'

/-- A character of a comment or of a string that needs no escape. -/
def isPlain (c : Char) : Bool := c == '\t' || (0x20 ≤ c.toNat && c.toNat != 0x7F)

/-- The text behind a comment, if there is one. -/
def skipComment (s : List Char) : List Char :=
  match s with
  | '#' :: t => t.dropWhile isPlain
  | _ => s

/-- The text behind a line end. -/
def lineEnd? : List Char → Option (List Char)
  | '\n' :: s => some s
  | '\r' :: '\n' :: s => some s
  | _ => none

/-- The text behind the rest of a line that holds nothing but blanks and a comment. -/
def lineTail? (s : List Char) : Option (List Char) :=
  match skipComment (skipBlanks s) with
  | [] => some []
  | s => lineEnd? s

/-- The text behind blanks, comments and line ends. Every turn of the loop takes a line end; `fuel` bounds
their number. -/
def skipLinesFrom : (fuel : Nat) → List Char → Option (List Char)
  | 0, s => some s
  | fuel + 1, s =>
    match skipBlanks s with
    | '#' :: t => (lineEnd? (t.dropWhile isPlain)).bind (skipLinesFrom fuel)
    | '\n' :: t => skipLinesFrom fuel t
    | '\r' :: t => (lineEnd? ('\r' :: t)).bind (skipLinesFrom fuel)
    | t => some t

/-- The text behind blanks, comments and line ends. -/
def skipLines (s : List Char) : Option (List Char) := skipLinesFrom (s.length + 1) s

end Speedtest.Toml
