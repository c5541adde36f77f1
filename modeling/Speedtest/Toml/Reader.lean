import Speedtest.Toml.Draft
import Speedtest.Toml.Numeral
import Speedtest.Toml.Text

/-!
# Reading a document

A document is a list of lines: a header, a key with its value, a comment, or nothing. Arrays and inline
tables may be nested up to a limit, and a key may have as many names as the limit, less one; the number of
levels that are left is what the recursion on values goes by.
-/
namespace Speedtest.Toml

/-- The levels of nesting that a document stays below. -/
def nestingLimit : Nat := 80

/-- A character of a key that needs no quotes. -/
def isBareKey (c : Char) : Bool :=
  Text.isAsciiLetter c || Text.isAsciiDigit c || c == '-' || c == '_'

def name? (s : List Char) : Option (String × List Char) :=
  match s with
  | '"' :: _ | '\'' :: _ => (quoted? s).map fun (n, rest) => (String.ofList n, rest)
  | _ =>
    let bare := s.takeWhile isBareKey
    if bare.isEmpty then none else some (String.ofList bare, s.dropWhile isBareKey)

/-- Names with dots between them and blanks around them. `fuel` bounds the number of names. -/
def namesFrom : (fuel : Nat) → List Char → Option (List String × List Char)
  | 0, _ => none
  | fuel + 1, s => do
    let (n, s) ← name? (skipBlanks s)
    match skipBlanks s with
    | '.' :: t => (namesFrom fuel t).map fun (ns, rest) => (n :: ns, rest)
    | t => some ([n], t)

def key? (s : List Char) : Option (List String × List Char) := namesFrom (nestingLimit - 1) s

/-- Items of an array behind its opening bracket. Every turn takes an item; `fuel` bounds their
number. -/
def itemsFrom (item : Reader Value) : (fuel : Nat) → List Char → Option (List Value × List Char)
  | 0, _ => none
  | fuel + 1, s => do
    let s ← skipLines s
    match s with
    | ']' :: rest => some ([], rest)
    | _ =>
      let (v, s) ← item s
      let s ← skipLines s
      match s with
      | ',' :: rest => (itemsFrom item fuel rest).map fun (vs, rest) => (v :: vs, rest)
      | ']' :: rest => some ([v], rest)
      | _ => none

/-- A key, its equals sign and its value. -/
def pair? (item : Reader Value) (s : List Char) : Option ((List String × Value) × List Char) := do
  let (path, s) ← key? s
  match s with
  | '=' :: s =>
    let (v, s) ← item (skipBlanks s)
    return ((path, v), s)
  | _ => none

/-- Members of an inline table that has at least one more. Every turn takes a pair; `fuel` bounds their
number. -/
def membersFrom (item : Reader Value) :
    (fuel : Nat) → Draft → List Char → Option (Draft × List Char)
  | 0, _, _ => none
  | fuel + 1, d, s => do
    let ((path, v), s) ← pair? item s
    let d ← d.addValue path v
    match skipBlanks s with
    | ',' :: rest => membersFrom item fuel d rest
    | '}' :: rest => some (d, rest)
    | _ => none

/-- A value below so many levels of nesting. -/
def value? : (levels : Nat) → Reader Value
  | levels, '[' :: s =>
    match levels with
    | 0 => none
    | below + 1 => (itemsFrom (value? below) (s.length + 1) s).map fun (vs, rest) => (.array vs, rest)
  | levels, '{' :: s =>
    match levels with
    | 0 => none
    | below + 1 =>
      match skipBlanks s with
      | '}' :: rest => some (.table [], rest)
      | s => (membersFrom (value? below) (s.length + 1) [] s).map fun (d, rest) =>
          (.table (finish d), rest)
  | _, 't' :: 'r' :: 'u' :: 'e' :: s => some (.boolean true, s)
  | _, 'f' :: 'a' :: 'l' :: 's' :: 'e' :: s => some (.boolean false, s)
  | _, '"' :: s => (string? ('"' :: s)).map fun (t, rest) => (.text (String.ofList t), rest)
  | _, '\'' :: s => (string? ('\'' :: s)).map fun (t, rest) => (.text (String.ofList t), rest)
  | _, s => number? s

/-- A document that is being read: what it holds so far, and the table that lines belong to. -/
structure Progress where
  draft : Draft
  current : List String

namespace Progress

/-- Reads a header of a single table, behind its bracket. -/
def header? (p : Progress) (s : List Char) : Option (Progress × List Char) := do
  let (path, s) ← key? s
  match s with
  | ']' :: s => return (⟨← p.draft.declare path, path⟩, ← lineTail? s)
  | _ => none

/-- Reads a header of a table of an array, behind its brackets. -/
def arrayHeader? (p : Progress) (s : List Char) : Option (Progress × List Char) := do
  let (path, s) ← key? s
  match s with
  | ']' :: ']' :: s => return (⟨← p.draft.declareAnother path, path⟩, ← lineTail? s)
  | _ => none

/-- Reads a line with a key and its value. -/
def pairLine? (p : Progress) (s : List Char) : Option (Progress × List Char) := do
  let ((path, v), s) ← pair? (value? (nestingLimit - 1)) s
  let draft ← p.draft.update p.current fun d => d.addValue path v
  return ({ p with draft }, ← lineTail? s)

/-- Reads a line that starts at its first character that is no blank. -/
def line? (p : Progress) (s : List Char) : Option (Progress × List Char) :=
  match s with
  | '#' :: _ => (lineTail? s).map fun rest => (p, rest)
  | '\n' :: rest => some (p, rest)
  | '\r' :: _ => (lineEnd? s).map fun rest => (p, rest)
  | '[' :: '[' :: rest => p.arrayHeader? rest
  | '[' :: rest => p.header? rest
  | _ => p.pairLine? s

/-- Reads lines to the end. Every line takes a character; `fuel` is their number. -/
def lines? : (fuel : Nat) → Progress → List Char → Option Progress
  | fuel, p, s =>
    match skipBlanks s with
    | [] => some p
    | s => match fuel with
      | 0 => none
      | fuel + 1 => (p.line? s).bind fun (p, rest) => lines? fuel p rest

end Progress

/-- The text of a document without the mark of its encoding in front. -/
def withoutMark (s : List Char) : List Char :=
  match s with
  | c :: t => if c = Char.ofNat 0xFEFF then t else s
  | [] => []

/-- The table of a document, when it is well formed. -/
def read? (s : List Char) : Option Table :=
  let s := withoutMark s
  (Progress.lines? s.length ⟨[], []⟩ s).map fun p => finish p.draft

end Speedtest.Toml
