import Speedtest.Http.Headers
import Speedtest.Text.Scan

/-!
# Blocks of header fields

A block is a run of lines `name: value` that an empty line ends. A line may end with a line feed alone;
blanks around a value do not belong to it.
-/
namespace Speedtest.Http.FieldBlock

/-- The most fields that a block may have. -/
def maxFields : Nat := 32

def isBlank (b : UInt8) : Bool := b == 0x20 || b == 0x09

/-- A line without the carriage return at its end. -/
def withoutReturn (line : Bytes) : Bytes :=
  if line.getLast? = some 0x0D then line.dropLast else line

def readLine? (line : Bytes) : Option (String × Bytes) :=
  match Text.cutAt? (· == 0x3A) line with
  | some (name, value) =>
    Headers.field? (String.ofList (name.map fun b => Char.ofNat b.toNat)) (Text.trimBy isBlank value)
  | none => none

/-- The fields of a block that may have `room` more, in reverse after those of `done`. What follows the
empty line is passed over. -/
def readFrom? (done : Headers) : (room : Nat) → Bytes → Option Headers
  | 0, s =>
    match Text.cutAt? (· == 0x0A) s with
    | some (line, _) => if (withoutReturn line).isEmpty then some done else none
    | none => none
  | room + 1, s =>
    match Text.cutAt? (· == 0x0A) s with
    | some (line, rest) =>
      if (withoutReturn line).isEmpty then some done
      else (readLine? (withoutReturn line)).bind fun field => readFrom? (field :: done) room rest
    | none => none

/-- The fields of a block, the last one first. -/
def read? (s : Bytes) : Option Headers := readFrom? [] maxFields s

end Speedtest.Http.FieldBlock
