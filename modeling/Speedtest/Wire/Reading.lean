import Speedtest.Http.Headers
import Speedtest.Text.Numeral

/-!
# Reading messages off a connection

A message is read off the front of the bytes that have arrived. Either it is there, or the bytes can never
become a message, or more of them have to come.
-/
namespace Speedtest.Wire

/-- Why bytes are no message. -/
inductive Refusal where
  | malformed
  | tooManyFields
  | targetTooLong
  deriving DecidableEq

def Refusal.status : Refusal → Nat
  | .malformed => 400
  | .tooManyFields => 431
  | .targetTooLong => 414

/-- What bytes come to. -/
inductive Reading (α : Type) where
  | done (a : α) (rest : Bytes)
  | refused (r : Refusal)
  | unfinished

namespace Reading

variable {α β : Type}

def bind (r : Reading α) (f : α → Bytes → Reading β) : Reading β :=
  match r with
  | .done a rest => f a rest
  | .refused r => .refused r
  | .unfinished => .unfinished

def map (f : α → β) (r : Reading α) : Reading β := r.bind fun a rest => .done (f a) rest

/-- What was read, or a refusal when it does not do. -/
def ofOption (r : Refusal) (a : Option α) (rest : Bytes) : Reading α :=
  match a with
  | some a => .done a rest
  | none => .refused r

end Reading

/-- The bytes before a byte that ends them, when they are all of a kind; `done` has them in reverse. -/
def word (kind : UInt8 → Bool) (stop : UInt8) (done : Bytes) : Bytes → Reading Bytes
  | [] => .unfinished
  | b :: s =>
    if b == stop then .done done.reverse s
    else if kind b then word kind stop (b :: done) s
    else .refused .malformed

/-- A line end, of which the carriage return may be missing. -/
def lineEnd : Bytes → Reading Unit
  | [] => .unfinished
  | [0x0D] => .unfinished
  | 0x0D :: 0x0A :: s => .done () s
  | 0x0A :: s => .done () s
  | _ => .refused .malformed

/-- Line ends in front of a message, which are passed over. -/
def skipLineEnds : Bytes → Bytes
  | 0x0D :: 0x0A :: s => skipLineEnds s
  | 0x0A :: s => skipLineEnds s
  | s => s

def literal : (text : Bytes) → Bytes → Reading Unit
  | [], s => .done () s
  | _ :: _, [] => .unfinished
  | a :: text, b :: s => if a == b then literal text s else .refused .malformed

def isNameByte (b : UInt8) : Bool := Http.Headers.isNameChar (Char.ofNat b.toNat)

def isBlank (b : UInt8) : Bool := b == 0x20 || b == 0x09

/-- The value of a field up to its line end, which is left; `done` has it in reverse. -/
def fieldValue (done : Bytes) : Bytes → Reading Bytes
  | [] => .unfinished
  | b :: s =>
    if b == 0x0D || b == 0x0A then .done done.reverse (b :: s)
    else if Http.Headers.isValueByte b then fieldValue (b :: done) s
    else .refused .malformed

def field (s : Bytes) : Reading (String × Bytes) :=
  (word isNameByte 0x3A [] s).bind fun name s =>
    (fieldValue [] s).bind fun value s =>
      (lineEnd s).bind fun _ s =>
        .ofOption .malformed
          (Http.Headers.field? (String.ofList (name.map fun b => Char.ofNat b.toNat))
            (Text.trimBy isBlank value)) s

/-- Fields up to the empty line behind them, of which there is room for so many. -/
def fields : (room : Nat) → Bytes → Reading Http.Headers
  | _, [] => .unfinished
  | room, b :: s =>
    if b == 0x0D || b == 0x0A then (lineEnd (b :: s)).map fun _ => []
    else match room with
      | 0 => .refused .tooManyFields
      | room + 1 => (field (b :: s)).bind fun found s => (fields room s).map (found :: ·)

/-- The most fields of a message. -/
def maxFields : Nat := 100

/-- The words of a list with commas between them, in lower case and without blanks around them. -/
def listed (value : Bytes) : List String :=
  (value.splitOn 0x2C).map fun item =>
    String.ofList ((Text.trimBy isBlank item).map fun b => Text.asciiLower (Char.ofNat b.toNat))

def valuesOf (h : Http.Headers) (name : String) : List Bytes :=
  (h.filter (·.1 == name)).map (·.2)

def lengthOf? (value : Bytes) : Option Nat :=
  (Text.readDigits? (value.map fun b => Char.ofNat b.toNat)).filter (· < Nat.pow 2 64)

end Speedtest.Wire
