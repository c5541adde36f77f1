import Speedtest.Json.Basic
import Speedtest.Json.Lexeme

/-!
# Reading JSON

The reader walks the bytes once with the open arrays and objects on a stack, so the depth of a document
does not matter to it. `Place` is what may come next.
-/
namespace Speedtest.Json.Reader

/-- A container that is still open, with its finished parts in reverse. -/
inductive Open where
  | array (items : List Json)
  | object (members : List (Bytes × Json)) (key : Bytes)

/-- What may come next. -/
inductive Place where
  /-- A value has to come. -/
  | value
  /-- A value has to come, or the array that was just opened ends. -/
  | firstItem
  /-- A key has to come; an object that was just opened may also end. -/
  | key (members : List (Bytes × Json)) (first : Bool)
  /-- A value has just been read. -/
  | after (v : Json)

def isSpace (b : UInt8) : Bool := b == 0x20 || b == 0x0A || b == 0x09 || b == 0x0D

def dropSpace (s : Bytes) : Bytes := s.dropWhile isSpace

/-- The text of a literal taken off the front. -/
def literal? (name : String) (v : Json) (s : Bytes) : Option (Json × Bytes) :=
  let name := Bytes.ofAscii name
  if name.isPrefixOf s then some (v, s.drop name.length) else none

/-- A value that is no container, at the front of the bytes. -/
def scalar? (s : Bytes) : Option (Json × Bytes) :=
  match s with
  | 0x22 :: t => (Lexeme.stringFrom [] t).map fun (w, r) => (.string w, r)
  | 0x74 :: _ => literal? "true" (.bool true) s
  | 0x66 :: _ => literal? "false" (.bool false) s
  | 0x6E :: _ => literal? "null" .null s
  | _ => (Lexeme.number? s).map fun (w, r) => (.number w, r)

/-- A key and the colon behind it. -/
def key? (s : Bytes) : Option (Bytes × Bytes) :=
  match s with
  | 0x22 :: t =>
    match Lexeme.stringFrom [] t with
    | some (k, r) =>
      match dropSpace r with
      | 0x3A :: r => some (k, r)
      | _ => none
    | none => none
  | _ => none

/-- A step: the next place, the open containers and the bytes left. -/
structure Progress where
  place : Place
  stack : List Open
  rest : Bytes

/-- One step at bytes that do not start with a blank. Nothing comes out when the bytes are no JSON. -/
def step (place : Place) (stack : List Open) (s : Bytes) : Option Progress :=
  match place with
  | .value | .firstItem =>
    match s with
    | 0x5B :: t => some ⟨.firstItem, .array [] :: stack, t⟩
    | 0x7B :: t => some ⟨.key [] true, stack, t⟩
    | _ =>
      match place, s, stack with
      | .firstItem, 0x5D :: t, .array items :: stack => some ⟨.after (.array items.reverse), stack, t⟩
      | _, _, _ => (scalar? s).map fun (v, r) => ⟨.after v, stack, r⟩
  | .key members first =>
    match s with
    | 0x7D :: t => if first then some ⟨.after (.object members.reverse), stack, t⟩ else none
    | _ => (key? s).map fun (k, r) => ⟨.value, .object members k :: stack, r⟩
  | .after v =>
    match stack, s with
    | .array items :: stack, 0x2C :: t => some ⟨.value, .array (v :: items) :: stack, t⟩
    | .array items :: stack, 0x5D :: t => some ⟨.after (.array (v :: items).reverse), stack, t⟩
    | .object members k :: stack, 0x2C :: t => some ⟨.key ((k, v) :: members) false, stack, t⟩
    | .object members k :: stack, 0x7D :: t =>
      some ⟨.after (.object ((k, v) :: members).reverse), stack, t⟩
    | _, _ => none

/-- Reads on until a value stands alone at the end of the bytes. Every step takes at least one byte;
`fuel` is the number of bytes left. -/
def run : (fuel : Nat) → Place → List Open → Bytes → Option Json
  | 0, .after v, [], s => if (dropSpace s).isEmpty then some v else none
  | 0, _, _, _ => none
  | fuel + 1, place, stack, s =>
    match place, stack, dropSpace s with
    | .after v, [], [] => some v
    | .after _, [], _ => none
    | place, stack, s => (step place stack s).bind fun p => run fuel p.place p.stack p.rest

end Speedtest.Json.Reader

namespace Speedtest.Json

/-- The value that a byte string writes, with blanks around it. -/
def read? (s : Bytes) : Option Json := Reader.run s.length .value [] s

end Speedtest.Json
