import Speedtest.Json.Reader
import Speedtest.Json.Writer

/-!
# Records in JSON

A record is read from an object with its fields in any order, or from an array with its fields in order. A field
that the record does not know is passed over; one that it knows may come only once and has to be what the
record wants there, which is a text in a flat record.
-/
namespace Speedtest.Json

variable {α : Type}

/-- The known members of an object, each with what it is read as. -/
def knownMembers? (read : Json → Option α) (names : List String) : List (Bytes × Json) → Option (List (String × α))
  | [] => some []
  | (k, v) :: members => do
    let name ← Lexeme.decode? k
    let found ← knownMembers? read names members
    if name ∈ names then
      let value ← read v
      if (found.lookup name).isSome then none else return (name, value) :: found
    else return found

/-- The members of a record from an object or from an array; an array may be short but not long. -/
def readMembers? (read : Json → Option α) (names : List String) : Json → Option (List (String × α))
  | .object members => knownMembers? read names members
  | .array items =>
    if items.length ≤ names.length then
      (items.mapM read).map fun values => names.zip values
    else none
  | _ => none

def readFields? (names : List String) (v : Json) : Option (List (String × String)) := v.readMembers? text? names

end Speedtest.Json
