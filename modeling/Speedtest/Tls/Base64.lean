import Speedtest.Bytes

/-!
# Base64

Four symbols stand for three bytes. The last group may be short, with or without padding signs in the place of
what is missing, and padding may stand nowhere else. Blanks are passed over wherever they stand.
-/
namespace Speedtest.Tls.Base64

/-- A byte of the text: a digit of base 64, the padding sign, or a blank. -/
inductive Symbol where
  | digit (value : Nat)
  | padding
  | blank
  deriving DecidableEq

def symbol? (b : UInt8) : Option Symbol :=
  if 0x41 ≤ b ∧ b ≤ 0x5A then some (.digit (b.toNat - 0x41))
  else if 0x61 ≤ b ∧ b ≤ 0x7A then some (.digit (b.toNat - 0x61 + 26))
  else if 0x30 ≤ b ∧ b ≤ 0x39 then some (.digit (b.toNat - 0x30 + 52))
  else if b = 0x2B then some (.digit 62)
  else if b = 0x2F then some (.digit 63)
  else if b = 0x3D then some .padding
  else if b = 0x20 ∨ b = 0x09 ∨ b = 0x0A ∨ b = 0x0D then some .blank
  else none

/-- The bytes of a full group of digits. -/
def bytesOf (a b c d : Nat) : Bytes := Bytes.ofNat 3 (((a * 64 + b) * 64 + c) * 64 + d)

def decodeGroups? : List Symbol → Option Bytes
  | [] => some []
  | [.digit a, .digit b] => some ((bytesOf a b 0 0).take 1)
  | [.digit a, .digit b, .padding, .padding] => some ((bytesOf a b 0 0).take 1)
  | [.digit a, .digit b, .digit c] => some ((bytesOf a b c 0).take 2)
  | [.digit a, .digit b, .digit c, .padding] => some ((bytesOf a b c 0).take 2)
  | .digit a :: .digit b :: .digit c :: .digit d :: s =>
    (decodeGroups? s).map (bytesOf a b c d ++ ·)
  | _ => none

def decode? (text : Bytes) : Option Bytes :=
  (text.mapM symbol?).bind fun symbols => decodeGroups? (symbols.filter (· != .blank))

end Speedtest.Tls.Base64
