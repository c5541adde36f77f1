import Speedtest.Address.V6
import Speedtest.Text.Percent
import Speedtest.Text.Utf8
import Speedtest.Url.Punycode

/-!
# Hosts

The host of a locator is a domain name, an IPv4 address or an IPv6 address in brackets. Under the schemes
of the web a name is put into lower case and into ASCII, and one that ends in a number has to be an
IPv4 address, whose numbers may be decimal, octal or hexadecimal and of which the last fills the bytes
that are left. Under other schemes the name is kept as it stands.

Of the mapping of international names only a part is known here: lower case where an alphabet pairs its
letters by a fixed distance, the full-width forms of ASCII, the characters that are dropped and the ranges
that no name has. Names are not composed into a normal form, the rules on joiners and on the direction of
writing are not checked, and a letter that maps to several others stays as it is.
-/
namespace Speedtest.Url

/-- Why a text is no locator. -/
inductive Fault where
  | noScheme
  | emptyHost
  | badPort
  | badDomain
  | badV4
  | badV6
  | badHostCharacter
  deriving DecidableEq, Repr

def Fault.message : Fault → String
  | .noScheme => "relative URL without a base"
  | .emptyHost => "empty host"
  | .badPort => "invalid port number"
  | .badDomain => "invalid international domain name"
  | .badV4 => "invalid IPv4 address"
  | .badV6 => "invalid IPv6 address"
  | .badHostCharacter => "invalid domain character"

/-- A host. The name that is empty stands for no host. -/
inductive Host where
  | name (text : List Char)
  | v4 (a : Address.V4)
  | v6 (a : Address.V6)
  deriving DecidableEq

namespace Host

def text : Host → List Char
  | .name s => s
  | .v4 a => a.text
  | .v6 a => '[' :: Address.V6.groupsText a.groups ++ [']']

/-- Whether a character may not stand in the name of a host. -/
def isForbidden (c : Char) : Bool :=
  c == '\x00' || c == '\t' || c == '\n' || c == '\r' || c ∈ " #/:<>?@[\\]^|".toList

/-- Whether a character may not stand in a domain name. -/
def isForbiddenInDomain (c : Char) : Bool :=
  c.toNat < 0x20 || c.toNat == 0x7F || c == '%' || isForbidden c

/-- A numeral of an IPv4 address. Nothing comes out when it is none. -/
def readNumber? (s : List Char) : Option Nat :=
  match s with
  | [] => none
  | '0' :: 'x' :: t | '0' :: 'X' :: t => if t.isEmpty then some 0 else Text.readHex? t
  | '0' :: d :: t => Text.numeralFrom 8 (fun c => (Text.digitValue? c).filter (· < 8)) 0 (d :: t)
  | _ => Text.readDigits? s

/-- Whether a domain name ends in a number, so that it has to be an IPv4 address. -/
def endsInNumber (domain : List Char) : Bool :=
  let parts := (domain.splitOn '.').reverse
  let last := match parts with
    | [] :: rest => rest.head?
    | _ => parts.head?
  last.any fun s => (!s.isEmpty && s.all Text.isAsciiDigit) || (readNumber? s).isSome

/-- The IPv4 address of numbers, of which the last fills the bytes that are left. -/
def ofNumbers? (numbers : List Nat) : Option Address.V4 :=
  match numbers.reverse with
  | [] => none
  | last :: lead =>
    if 3 < lead.length ∨ lead.any (255 < ·) ∨ Nat.pow 256 (4 - lead.length) ≤ last then none
    else match lead.reverse.map UInt8.ofNat ++ Bytes.ofNat (4 - lead.length) last with
      | [a, b, c, d] => some ⟨a, b, c, d⟩
      | _ => none

/-- The IPv4 address of a domain name that ends in a number. -/
def readV4? (domain : List Char) : Option Address.V4 :=
  let parts := domain.splitOn '.'
  let parts := if parts.getLast? = some [] then parts.dropLast else parts
  (parts.mapM readNumber?).bind ofNumbers?

/-- Characters that a domain name drops: those that only say where a line may break or how a character
looks. -/
def isDropped (c : Char) : Bool :=
  c.toNat ∈ [0xAD, 0x34F, 0x200B, 0x2060, 0x2064, 0xFEFF] || (0xFE00 ≤ c.toNat && c.toNat ≤ 0xFE0F)

/-- The full-width forms of ASCII characters as those characters. -/
def narrow (c : Char) : Char :=
  if 0xFF01 ≤ c.toNat && c.toNat ≤ 0xFF5E then Char.ofNat (c.toNat - 0xFEE0) else c

/-- Lower case in the alphabets whose letters pair up by a fixed distance. -/
def lower (c : Char) : Char :=
  let n := c.toNat
  if n < 128 then Text.asciiLower c
  else if (0xC0 ≤ n && n ≤ 0xDE && n != 0xD7) || (0x391 ≤ n && n ≤ 0x3A9) || (0x410 ≤ n && n ≤ 0x42F)
  then Char.ofNat (n + 32)
  else if 0x400 ≤ n && n ≤ 0x40F then Char.ofNat (n + 80)
  else if 0x100 ≤ n && n ≤ 0x137 && n % 2 == 0 then Char.ofNat (n + 1)
  else c

/-- The ranges beyond ASCII whose characters no domain name has: controls, blanks, marks of direction,
characters for private use and those that are none. -/
def excludedRanges : List (Nat × Nat) :=
  [(0x80, 0xA0), (0x1680, 0x1680), (0x2000, 0x200F), (0x2028, 0x202F), (0x205F, 0x206F),
    (0x3000, 0x3000), (0xE000, 0xF8FF), (0xFDD0, 0xFDEF), (0xFFF0, 0xFFFF), (0xE0000, 0x10FFFF)]

/-- Whether a label of a domain name may have a character as it stands. -/
def isLabelChar (c : Char) : Bool :=
  lower (narrow c) == c && !isDropped c &&
    !excludedRanges.any fun (low, high) => low ≤ c.toNat && c.toNat ≤ high

/-- A label of a domain name in ASCII. One that is marked as an ASCII form has to be one. -/
def asciiLabel? (label : List Char) : Option (List Char) :=
  if label.all fun c => c.toNat < 128 then
    match Text.dropLead? "xn--".toList label with
    | some form =>
      match Punycode.decode? form with
      | some s =>
        if s.all isLabelChar ∧ s.any fun c => 128 ≤ c.toNat then some label else none
      | none => none
    | none => some label
  else if label.all isLabelChar then some ("xn--".toList ++ Punycode.encode label)
  else none

def joinLabels : List (List Char) → List Char
  | [] => []
  | [label] => label
  | label :: rest => label ++ '.' :: joinLabels rest

def asciiDomain? (s : List Char) : Option (List Char) :=
  let s := (s.filter fun c => !isDropped c).map fun c => lower (narrow c)
  let dotted := s.map fun c => if c ∈ ['。', '｡'] then '.' else c
  if dotted.any isForbiddenInDomain then none
  else ((dotted.splitOn '.').mapM asciiLabel?).map joinLabels

/-- The IPv6 address of a text that starts with a bracket. -/
def readV6 (s : List Char) : Except Fault Host :=
  match s.getLast?, Address.V6.ofText? s.dropLast with
  | some ']', some a => .ok (.v6 a)
  | _, _ => .error .badV6

/-- The host of a text under one of the schemes of the web. -/
def readDomain (s : List Char) : Except Fault Host :=
  match s with
  | '[' :: t => readV6 t
  | _ => do
    let some plain := Text.Utf8.decode? (Text.Percent.decode (Text.Utf8.encode s))
      | throw .badDomain
    let some domain := asciiDomain? plain | throw .badDomain
    if domain.isEmpty then throw .emptyHost
    if endsInNumber domain then
      let some a := readV4? domain | throw .badV4
      return .v4 a
    return .name domain

/-- The host of a text under any other scheme. -/
def readName (s : List Char) : Except Fault Host :=
  match s with
  | '[' :: t => readV6 t
  | _ =>
    if s.any isForbidden then .error .badHostCharacter
    else .ok (.name (Text.Percent.encode (fun b => 0x20 ≤ b && b < 0x7F) (Text.Utf8.encode s)))

end Host
end Speedtest.Url
