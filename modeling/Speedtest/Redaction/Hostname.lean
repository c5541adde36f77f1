import Speedtest.Text.Blank
import Speedtest.Text.Replace

/-!
# Host names in JSON

The pattern finds the member of an object whose key is written `"hostname"` and whose value is a string.
The value runs to the first quote that no backslash stands in front of; a backslash takes the character
behind it along, unless that is a line end.
-/
namespace Speedtest.Redaction

def hostnameKey : List Char := "\"hostname\"".toList

/-- The number of characters up to and with the quote that ends a string, when `taken` were read. -/
def stringEnd? (taken : Nat) : List Char → Option Nat
  | [] => none
  | '"' :: _ => some (taken + 1)
  | '\\' :: c :: s => if c = '\n' then none else stringEnd? (taken + 2) s
  | '\\' :: [] => none
  | _ :: s => stringEnd? (taken + 1) s

def blanks (s : List Char) : Nat := (s.takeWhile Text.isBlank).length

/-- A member whose key is `"hostname"` and whose value is a string. -/
def hostname : Text.Pattern := fun _ s =>
  match Text.dropLead? hostnameKey s with
  | none => none
  | some s =>
    let lead := blanks s
    match s.drop lead with
    | ':' :: t =>
      let gap := blanks t
      match t.drop gap with
      | '"' :: value => stringEnd? (hostnameKey.length + lead + 1 + gap + 1) value
      | _ => none
    | _ => none

end Speedtest.Redaction
