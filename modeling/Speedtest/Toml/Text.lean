import Speedtest.Text.Numeral
import Speedtest.Toml.Blank

/-!
# Strings of a document

A string is basic, with escapes, or literal, without; each of the two may run over several lines between
three quotes. A line end inside a string is a line feed, whichever way it is written. Up to two more
quotes may stand directly before the three that close a string, and belong to it.
-/
namespace Speedtest.Toml

/-- The character that a one-letter escape stands for. -/
def simpleEscape? : Char → Option Char
  | 'b' => some '\x08'
  | 't' => some '\t'
  | 'n' => some '\n'
  | 'f' => some '\x0c'
  | 'r' => some '\r'
  | '"' => some '"'
  | '\\' => some '\\'
  | _ => none

/-- The character of a hexadecimal number, when it is one. -/
def scalar? (digits : List Char) : Option Char :=
  (Text.readHex? digits).bind fun n => if n.isValidChar then some (Char.ofNat n) else none

/-- Puts a character in front of what a reader found. -/
def withChar (c : Char) : List Char × List Char → List Char × List Char
  | (content, rest) => (c :: content, rest)

/-- The content of a basic string behind its opening quote. -/
def basic? : Reader (List Char)
  | '"' :: s => some ([], s)
  | '\\' :: 'u' :: a :: b :: c :: d :: s =>
    (scalar? [a, b, c, d]).bind fun x => (basic? s).map (withChar x)
  | '\\' :: 'U' :: a :: b :: c :: d :: e :: f :: g :: h :: s =>
    (scalar? [a, b, c, d, e, f, g, h]).bind fun x => (basic? s).map (withChar x)
  | '\\' :: e :: s => (simpleEscape? e).bind fun x => (basic? s).map (withChar x)
  | c :: s => if isPlain c && c != '\\' then (basic? s).map (withChar c) else none
  | [] => none

/-- The content of a literal string behind its opening quote. -/
def literal? : Reader (List Char)
  | '\'' :: s => some ([], s)
  | c :: s => if isPlain c then (literal? s).map (withChar c) else none
  | [] => none

/-- The quotes that belong to a string of several lines, and the text behind the three that close it. -/
def closing (quote : Char) (s : List Char) : List Char × List Char :=
  let extra := (s.take 2).takeWhile (· == quote)
  (extra, s.drop extra.length)

/-- The content of a basic string of several lines. `skipping` says that a backslash at the end of a line
has been read, behind which blanks and line ends do not count. -/
def basicLines? (skipping : Bool) : Reader (List Char)
  | '"' :: '"' :: '"' :: s => some (closing '"' s)
  | '\\' :: 'u' :: a :: b :: c :: d :: s =>
    (scalar? [a, b, c, d]).bind fun x => (basicLines? false s).map (withChar x)
  | '\\' :: 'U' :: a :: b :: c :: d :: e :: f :: g :: h :: s =>
    (scalar? [a, b, c, d, e, f, g, h]).bind fun x => (basicLines? false s).map (withChar x)
  | '\\' :: e :: s =>
    if (lineEnd? (skipBlanks (e :: s))).isSome then basicLines? true (e :: s)
    else (simpleEscape? e).bind fun x => (basicLines? false s).map (withChar x)
  | '\r' :: '\n' :: s =>
    if skipping then basicLines? true s else (basicLines? false s).map (withChar '\n')
  | c :: s =>
    if skipping && (c == ' ' || c == '\t' || c == '\n') then basicLines? true s
    else if (isPlain c && c != '\\') || c == '\n' then (basicLines? false s).map (withChar c)
    else none
  | [] => none

def literalLines? : Reader (List Char)
  | '\'' :: '\'' :: '\'' :: s => some (closing '\'' s)
  | '\r' :: '\n' :: s => (literalLines? s).map (withChar '\n')
  | c :: s => if isPlain c || c == '\n' then (literalLines? s).map (withChar c) else none
  | [] => none

/-- The text behind the line end that may follow three opening quotes. -/
def afterOpening (s : List Char) : List Char := (lineEnd? s).getD s

/-- A string of one line, as a key may be written. -/
def quoted? : Reader (List Char)
  | '"' :: s => basic? s
  | '\'' :: s => literal? s
  | _ => none

/-- A string of any kind. -/
def string? : Reader (List Char)
  | '"' :: '"' :: '"' :: s => basicLines? false (afterOpening s)
  | '\'' :: '\'' :: '\'' :: s => literalLines? (afterOpening s)
  | s => quoted? s

end Speedtest.Toml
