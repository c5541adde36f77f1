import Speedtest.Bytes

/-!
# UTF-8

`next` takes one character off the front of a byte string, or the longest piece that no character
starts with. Strict decoding refuses such a piece; lenient decoding writes one replacement
character for it.
-/
namespace Speedtest.Text.Utf8

def encode (s : List Char) : Bytes := s.flatMap String.utf8EncodeChar

/-- A byte that continues a character. -/
def isTail (b : UInt8) : Bool := 0x80 ≤ b && b ≤ 0xBF

/-- Whether `second` may follow the first byte `lead` of a character of three or four bytes. The
bounds keep out surrogates, overlong forms and numbers above the last code point. -/
def mayFollow (lead second : UInt8) : Bool :=
  isTail second &&
    !(lead == 0xE0 && second < 0xA0) && !(lead == 0xED && 0xA0 ≤ second) &&
    !(lead == 0xF0 && second < 0x90) && !(lead == 0xF4 && 0x90 ≤ second)

/-- The payload of a continuation byte. -/
def low6 (b : UInt8) : Nat := b.toNat - 0x80

/-- A character, or `none` for a piece that starts no character, and the bytes after it. -/
def next : Bytes → Option (Option Char × Bytes)
  | [] => none
  | a :: s => some <|
    if a < 0x80 then (some (Char.ofNat a.toNat), s)
    else if 0xC2 ≤ a && a ≤ 0xDF then
      match s with
      | b :: r =>
        if isTail b then (some (Char.ofNat ((a.toNat - 0xC0) * 64 + low6 b)), r) else (none, s)
      | [] => (none, [])
    else if 0xE0 ≤ a && a ≤ 0xEF then
      match s with
      | b :: r =>
        if mayFollow a b then
          match r with
          | c :: r' =>
            if isTail c then
              (some (Char.ofNat (((a.toNat - 0xE0) * 64 + low6 b) * 64 + low6 c)), r')
            else (none, r)
          | [] => (none, [])
        else (none, s)
      | [] => (none, [])
    else if 0xF0 ≤ a && a ≤ 0xF4 then
      match s with
      | b :: r =>
        if mayFollow a b then
          match r with
          | c :: r' =>
            if isTail c then
              match r' with
              | d :: r'' =>
                if isTail d then
                  (some (Char.ofNat
                    ((((a.toNat - 0xF0) * 64 + low6 b) * 64 + low6 c) * 64 + low6 d)), r'')
                else (none, r')
              | [] => (none, [])
            else (none, r)
          | [] => (none, [])
        else (none, s)
      | [] => (none, [])
    else (none, s)

theorem next_length {s rest : Bytes} {c : Option Char} (h : next s = some (c, rest)) :
    rest.length < s.length := by
  cases s with
  | nil => simp [next] at h
  | cons a s =>
    simp only [next, Option.some.injEq] at h
    repeat' split at h
    all_goals
      obtain ⟨-, rfl⟩ := Prod.mk.inj h
      simp only [List.length_cons]
      omega

/-- Strict decoding after the characters of `done`, which are kept in reverse. -/
def decodeFrom (done : List Char) (s : Bytes) : Option (List Char) :=
  match _h : next s with
  | none => some done.reverse
  | some (none, _) => none
  | some (some c, rest) => decodeFrom (c :: done) rest
termination_by s.length
decreasing_by exact next_length _h

/-- The text of a byte string, when it is one. -/
def decode? (s : Bytes) : Option (List Char) := decodeFrom [] s

/-- Lenient decoding after the characters of `done`, which are kept in reverse. -/
def decodeLenientFrom (done : List Char) (s : Bytes) : List Char :=
  match _h : next s with
  | none => done.reverse
  | some (none, rest) => decodeLenientFrom (Char.ofNat 0xFFFD :: done) rest
  | some (some c, rest) => decodeLenientFrom (c :: done) rest
termination_by s.length
decreasing_by all_goals exact next_length _h

/-- The text of a byte string, with a replacement character for every piece that is none. -/
def decodeLenient (s : Bytes) : List Char := decodeLenientFrom [] s

end Speedtest.Text.Utf8
