import Speedtest.Bytes
import Speedtest.Text.Ascii
import Speedtest.Text.Scan

/-!
# Header fields

The fields of a request or an answer in order. Names are kept in lower case, so that two spellings of a
name are one; values are bytes, and a value is a text only if it is visible ASCII.
-/
namespace Speedtest.Http

/-- The fields of a message, each with its name in lower case. -/
abbrev Headers := List (String × Bytes)

namespace Headers

def isNameChar (c : Char) : Bool :=
  Text.isAsciiLetter c || Text.isAsciiDigit c || c ∈ "!#$%&'*+-.^_`|~".toList

/-- A byte of a value: no control character but the tab. -/
def isValueByte (b : UInt8) : Bool := (0x20 ≤ b && b != 0x7F) || b == 0x09

/-- A byte of a value that is a text. -/
def isVisible (b : UInt8) : Bool := (0x20 ≤ b && b < 0x7F) || b == 0x09

/-- A field of a name of any case and a value, when both are well formed. -/
def field? (name : String) (value : Bytes) : Option (String × Bytes) :=
  if name.toList.all isNameChar && !name.isEmpty && value.all isValueByte then
    some (String.ofList (name.toList.map Text.asciiLower), value)
  else none

/-- The fields of names and values, when all are well formed. -/
def ofPairs? (pairs : List (String × Bytes)) : Option Headers :=
  pairs.mapM fun (name, value) => field? name value

/-- The first value of a name. -/
def first? (h : Headers) (name : String) : Option Bytes := h.lookup name

def visible? (value : Bytes) : Option String :=
  if value.all isVisible then some (String.ofList (value.map fun b => Char.ofNat b.toNat)) else none

/-- The first value of a name as a text. -/
def text? (h : Headers) (name : String) : Option String := (h.first? name).bind visible?

def has (h : Headers) (name : String) : Bool := (h.first? name).isSome

def set (h : Headers) (name : String) (value : Bytes) : Headers :=
  h.filter (·.1 != name) ++ [(name, value)]

/-- A value as it arrives over a connection, on which the blanks around it are lost. -/
def carried (value : Bytes) : Bytes := Text.trimBy (fun b => b == 0x20 || b == 0x09) value

def ascii (name value : String) : String × Bytes := (name, Bytes.ofAscii value)

end Headers
end Speedtest.Http
