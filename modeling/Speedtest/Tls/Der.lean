import Speedtest.Bytes

/-!
# Tagged elements

A certificate and a key are trees of elements: a tag, the length of the content, and the content. A length
has to be written in as few bytes as it needs, so an element is written in one way only.
-/
namespace Speedtest.Tls.Der

def boolean : UInt8 := 0x01

def integer : UInt8 := 0x02

def bitString : UInt8 := 0x03

def octetString : UInt8 := 0x04

def objectName : UInt8 := 0x06

def sequence : UInt8 := 0x30

/-- The tag of a part that is known by its number. -/
def numbered (n : UInt8) : UInt8 := 0xA0 + n

/-- A length of so many bytes, which is not less than a bound, and what follows it. -/
def longLength? (count bound : Nat) (s : Bytes) : Option (Nat × Bytes) :=
  let n := Bytes.toNat (s.take count)
  if s.length < count ∨ n < bound then none else some (n, s.drop count)

/-- A length, and what follows it. -/
def length? : Bytes → Option (Nat × Bytes)
  | [] => none
  | b :: s =>
    if b < 0x80 then some (b.toNat, s)
    else if b = 0x81 then longLength? 1 0x80 s
    else if b = 0x82 then longLength? 2 0x100 s
    else if b = 0x83 then longLength? 3 0x10000 s
    else if b = 0x84 then longLength? 4 0x1000000 s
    else none

/-- An element at the front: its tag, its content, and what follows it. -/
def read? : Bytes → Option (UInt8 × Bytes × Bytes)
  | [] => none
  | tag :: s =>
    if tag &&& 0x1F = 0x1F then none
    else (length? s).bind fun (n, s) =>
      if n ≤ s.length then some (tag, s.take n, s.drop n) else none

/-- The content of an element with a given tag at the front, and what follows it. -/
def take? (tag : UInt8) (s : Bytes) : Option (Bytes × Bytes) :=
  (read? s).bind fun (found, content, rest) => if found = tag then some (content, rest) else none

/-- The content of an element with a given tag that is all there is. -/
def only? (tag : UInt8) (s : Bytes) : Option Bytes :=
  (take? tag s).bind fun (content, rest) => if rest.isEmpty then some content else none

/-- The content of an element with a given tag at the front, if there is one, and what follows it. -/
def optional? (tag : UInt8) (s : Bytes) : Option (Option Bytes × Bytes) :=
  if s.head? = some tag then (take? tag s).map fun (content, rest) => (some content, rest)
  else some (none, s)

/-- The contents of elements with a given tag that are all there is, of which each takes two bytes at least;
`fuel` is the number of bytes. -/
def many? (tag : UInt8) : (fuel : Nat) → Bytes → Option (List Bytes)
  | _, [] => some []
  | 0, _ => none
  | fuel + 1, s =>
    (take? tag s).bind fun (content, rest) => (many? tag fuel rest).map (content :: ·)

/-- The bytes of a bit string that fills its last byte. -/
def wholeBytes? : Bytes → Option Bytes
  | 0 :: b => some b
  | _ => none

/-- The number of an integer that is not negative and has no byte too many. -/
def natural? : Bytes → Option Nat
  | [] => none
  | [b] => if b < 0x80 then some b.toNat else none
  | b :: c :: s =>
    if b < 0x80 ∧ ¬ (b = 0 ∧ c < 0x80) then some (Bytes.toNat (b :: c :: s)) else none

def lengthBytes (n : Nat) : Bytes :=
  if n < 0x80 then [UInt8.ofNat n]
  else if n < 0x100 then 0x81 :: Bytes.ofNat 1 n
  else if n < 0x10000 then 0x82 :: Bytes.ofNat 2 n
  else if n < 0x1000000 then 0x83 :: Bytes.ofNat 3 n
  else 0x84 :: Bytes.ofNat 4 n

def write (tag : UInt8) (content : Bytes) : Bytes := tag :: lengthBytes content.length ++ content

end Speedtest.Tls.Der
