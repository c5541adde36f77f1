import Speedtest.Decimal.Number

/-!
# Values of a configuration language

The values of a TOML document. A date or time is kept as its canonical text, which is all that anyone asks
of it.
-/
namespace Speedtest.Toml

/-- A value. -/
inductive Value where
  | text (s : String)
  | integer (n : Int)
  | float (x : Decimal.Reading)
  | boolean (b : Bool)
  | moment (text : String)
  | array (items : List Value)
  | table (members : List (String × Value))

/-- Named values. Every name comes once. -/
abbrev Table := List (String × Value)

namespace Table

def get? (t : Table) (name : String) : Option Value := t.lookup name

def insert (t : Table) (name : String) (v : Value) : Table := t.filter (·.1 != name) ++ [(name, v)]

end Table
end Speedtest.Toml
