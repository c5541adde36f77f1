import Speedtest.Text.Ascii
import Speedtest.Text.Blank
import Speedtest.Text.Scan
import Speedtest.Text.Utf8

/-!
# Character sets

A text that comes with the label of a character set is decoded by it. The sets are UTF-8, UTF-16 in both
byte orders and windows-1252, which the labels of Latin-1 and ASCII stand for as well. A byte order mark at
the front of a text overrules the label and is taken off. Whatever is no character becomes a replacement
character.

The other sets that a label can name, those of a single byte for further alphabets and those of East Asia,
are not known here: such a label counts as no label, and a form's part that bears it is read as UTF-8.
-/
namespace Speedtest.Text

/-- A character set. -/
inductive Charset where
  | utf8
  | utf16 (bigEndian : Bool)
  | windows1252
  deriving DecidableEq

namespace Charset

def utf8Labels : List String :=
  ["unicode-1-1-utf-8", "unicode11utf8", "unicode20utf8", "utf-8", "utf8", "x-unicode20utf8"]

/-- The labels of UTF-16 with the low byte first. -/
def littleEndianLabels : List String :=
  ["csunicode", "iso-10646-ucs-2", "ucs-2", "unicode", "unicodefeff", "utf-16", "utf-16le"]

/-- The labels of UTF-16 with the high byte first. -/
def bigEndianLabels : List String := ["unicodefffe", "utf-16be"]

def latinLabels : List String :=
  ["ansi_x3.4-1968", "ascii", "cp1252", "cp819", "csisolatin1", "ibm819", "iso-8859-1",
    "iso-ir-100", "iso8859-1", "iso88591", "iso_8859-1", "iso_8859-1:1987", "l1", "latin1",
    "us-ascii", "windows-1252", "x-cp1252"]

def isLabelBlank (c : Char) : Bool := c ∈ [' ', '\t', '\n', '\r', Char.ofNat 0x0C]

/-- The set that a label names. Nothing comes out for a label of a set that is not among the three. -/
def ofLabel? (label : String) : Option Charset :=
  let name := String.ofList ((trimBy isLabelBlank label.toList).map asciiLower)
  if utf8Labels.contains name then some .utf8
  else if littleEndianLabels.contains name then some (.utf16 false)
  else if bigEndianLabels.contains name then some (.utf16 true)
  else if latinLabels.contains name then some .windows1252
  else none

/-- The characters of windows-1252 that are not those of the same number, from 0x80 on. -/
def latinExtras : List Nat :=
  [0x20AC, 0x81, 0x201A, 0x192, 0x201E, 0x2026, 0x2020, 0x2021, 0x2C6, 0x2030, 0x160, 0x2039, 0x152,
    0x8D, 0x17D, 0x8F, 0x90, 0x2018, 0x2019, 0x201C, 0x201D, 0x2022, 0x2013, 0x2014, 0x2DC, 0x2122,
    0x161, 0x203A, 0x153, 0x9D, 0x17E, 0x178]

/-- The character of a byte in windows-1252. -/
def latinChar (b : UInt8) : Char :=
  if b < 0x80 then Char.ofNat b.toNat
  else Char.ofNat ((latinExtras[b.toNat - 0x80]?).getD b.toNat)

/-- What stands for a piece that is no character. -/
def replacement : Char := Char.ofNat 0xFFFD

/-- The number that two bytes write. -/
def unit (bigEndian : Bool) (a b : UInt8) : Nat :=
  if bigEndian then a.toNat * 256 + b.toNat else b.toNat * 256 + a.toNat

/-- The units of sixteen bits in a byte string, and whether a single byte is left over. -/
def units (bigEndian : Bool) : Bytes → List Nat × Bool
  | a :: b :: s =>
    let (us, odd) := units bigEndian s
    (unit bigEndian a b :: us, odd)
  | [_] => ([], true)
  | [] => ([], false)

def isLeading (u : Nat) : Bool := 0xD800 ≤ u && u ≤ 0xDBFF

def isTrailing (u : Nat) : Bool := 0xDC00 ≤ u && u ≤ 0xDFFF

/-- The characters of units. A leading unit at the very end and a byte that is left over are one piece. -/
def ofUnits (odd : Bool) : List Nat → List Char
  | [] => if odd then [replacement] else []
  | [u] =>
    if isLeading u then [replacement]
    else (if isTrailing u then replacement else Char.ofNat u) :: ofUnits odd []
  | u :: v :: us =>
    if isLeading u then
      if isTrailing v then
        Char.ofNat (0x10000 + (u - 0xD800) * 0x400 + (v - 0xDC00)) :: ofUnits odd us
      else replacement :: ofUnits odd (v :: us)
    else (if isTrailing u then replacement else Char.ofNat u) :: ofUnits odd (v :: us)

/-- The text that bytes write in a character set. -/
def decodeBare (c : Charset) (s : Bytes) : List Char :=
  match c with
  | .utf8 => Utf8.decodeLenient s
  | .utf16 bigEndian =>
    let (us, odd) := units bigEndian s
    ofUnits odd us
  | .windows1252 => s.map latinChar

/-- The text that bytes write in a character set, unless a byte order mark names another. -/
def decode (c : Charset) : Bytes → List Char
  | 0xEF :: 0xBB :: 0xBF :: s => decodeBare .utf8 s
  | 0xFF :: 0xFE :: s => decodeBare (.utf16 false) s
  | 0xFE :: 0xFF :: s => decodeBare (.utf16 true) s
  | s => decodeBare c s

end Charset
end Speedtest.Text
