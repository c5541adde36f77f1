import Speedtest.Address.V4
import Speedtest.Text.Scan

/-!
# IPv6 addresses

Eight groups of sixteen bits. The text form compresses the first of the longest runs of zero groups when
it has two groups or more, writes groups in lower case without leading zeros, and keeps the dotted form
for an IPv4 address that is carried in an IPv6 one. The reader admits every spelling of the
standard: upper case, leading zeros up to four digits, at most one `::`, and a dotted quad in the
place of the last two groups.
-/
namespace Speedtest.Address

/-- An IPv6 address. -/
structure V6 where
  groups : List UInt16
  length_eq : groups.length = 8
  deriving DecidableEq

namespace V6

def ofGroups? (groups : List UInt16) : Option V6 :=
  if h : groups.length = 8 then some ⟨groups, h⟩ else none

/-- The address whose groups are all zero. -/
def unspecified : V6 := ⟨List.replicate 8 0, by simp⟩

/-- The sixteen bytes of the address, first group first. -/
def octets (a : V6) : Bytes := a.groups.flatMap fun g => Bytes.ofNat 2 g.toNat

def toNat (a : V6) : Nat := a.groups.foldl (fun n g => n * 65536 + g.toNat) 0

def pairs : Bytes → List UInt16
  | hi :: lo :: rest => UInt16.ofNat (hi.toNat * 256 + lo.toNat) :: pairs rest
  | _ => []

def ofOctets? (b : Bytes) : Option V6 := ofGroups? (pairs b)

/-- The IPv4 address carried in the last two groups, when the first six say that one is. -/
def mapped? (a : V6) : Option V4 :=
  match a.groups with
  | [0, 0, 0, 0, 0, 0xFFFF, g, h] =>
    some ⟨UInt8.ofNat (g.toNat / 256), UInt8.ofNat (g.toNat % 256),
      UInt8.ofNat (h.toNat / 256), UInt8.ofNat (h.toNat % 256)⟩
  | _ => none

def zeroRun (groups : List UInt16) : Nat := (groups.takeWhile (· == 0)).length

/-- The start and length of the first longest run of zero groups, searching from group `i` on. -/
def longestRun : (i : Nat) → (groups : List UInt16) → Nat × Nat
  | i, [] => (i, 0)
  | i, g :: groups =>
    let here := zeroRun (g :: groups)
    let later := longestRun (i + 1) groups
    if later.2 ≤ here then (i, here) else later

/-- Groups with a colon between neighbours. -/
def joined : List UInt16 → List Char
  | [] => []
  | [g] => Text.hexadecimal g.toNat
  | g :: groups => Text.hexadecimal g.toNat ++ ':' :: joined groups

/-- The text of eight groups, a long run of zeros written as `::`. -/
def groupsText (groups : List UInt16) : List Char :=
  let (start, length) := longestRun 0 groups
  if 1 < length then
    joined (groups.take start) ++ [':', ':'] ++ joined (groups.drop (start + length))
  else joined groups

def text (a : V6) : List Char :=
  match a.mapped? with
  | some v4 => "::ffff:".toList ++ v4.text
  | none => groupsText a.groups

/-- A group at the front of a text: a run of one to four hexadecimal digits. -/
def readGroup? (s : List Char) : Option (UInt16 × List Char) :=
  let digits := s.takeWhile Text.isHexDigit
  let rest := s.dropWhile Text.isHexDigit
  if 4 < digits.length then none
  else (Text.readHex? digits).map fun n => (UInt16.ofNat n, rest)

/-- The text after the colon that every group but the first has in front. -/
def afterColon? (first : Bool) (s : List Char) : Option (List Char) :=
  if first then some s
  else match s with
    | ':' :: t => some t
    | _ => none

/-- Groups from the front of a text, up to `limit` of them, and the rest of the text. The flag says
that the last two are a dotted quad, for which two places have to be left. -/
def readGroups : (limit : Nat) → (first : Bool) → List Char → List UInt16 × Bool × List Char
  | 0, _, s => ([], false, s)
  | limit + 1, first, s =>
    match afterColon? first s with
    | none => ([], false, s)
    | some t =>
      match if limit = 0 then none else V4.read? t with
      | some (quad, rest) => (pairs quad.octets, true, rest)
      | none =>
        match readGroup? t with
        | none => ([], false, s)
        | some (g, rest) =>
          let (groups, dotted, rest) := readGroups limit false rest
          (g :: groups, dotted, rest)

/-- An address at the front of a text, and the text after it. -/
def read? (s : List Char) : Option (V6 × List Char) := do
  let (head, dotted, rest) := readGroups 8 true s
  if head.length = 8 then
    return (← ofGroups? head, rest)
  else if dotted then none
  else
    let rest ← Text.dropLead? [':', ':'] rest
    let (tail, _, rest) := readGroups (7 - head.length) true rest
    let zeros := List.replicate (8 - head.length - tail.length) 0
    return (← ofGroups? (head ++ zeros ++ tail), rest)

/-- The address of a text that is one and nothing else. -/
def ofText? (s : List Char) : Option V6 :=
  match read? s with
  | some (a, []) => some a
  | _ => none

end V6
end Speedtest.Address
