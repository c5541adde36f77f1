import Speedtest.Json.Basic
import Speedtest.Json.Lexeme

/-!
# Writing records as JSON

A flat record is written as an object of strings in the order of its fields, without blanks.
-/
namespace Speedtest.Json

def ofText (s : String) : Json := .string (Lexeme.encode s)

def text? : Json → Option String
  | .string w => Lexeme.decode? w
  | _ => none

mutual

/-- The shortest form of a value, without blanks. -/
def write : Json → Bytes
  | .null => Bytes.ofAscii "null"
  | .bool b => Bytes.ofAscii (if b then "true" else "false")
  | .number w => w
  | .string w => 0x22 :: w ++ [0x22]
  | .array items => 0x5B :: writeItems items ++ [0x5D]
  | .object members => 0x7B :: writeMembers members ++ [0x7D]

def writeItems : List Json → Bytes
  | [] => []
  | [v] => write v
  | v :: items => write v ++ 0x2C :: writeItems items

def writeMembers : List (Bytes × Json) → Bytes
  | [] => []
  | [(k, v)] => 0x22 :: k ++ [0x22, 0x3A] ++ write v
  | (k, v) :: members => 0x22 :: k ++ [0x22, 0x3A] ++ write v ++ 0x2C :: writeMembers members

end

def ofFields (fields : List (String × String)) : Json :=
  .object (fields.map fun (name, value) => (Lexeme.encode name, ofText value))

end Speedtest.Json
