import Speedtest.Bytes

/-!
# JSON documents

A document is a tree whose strings and numbers are kept as they are written. What a string says is
decoded only where it is wanted, so a part of a document that nobody reads has to be well formed and
nothing more.
-/
namespace Speedtest

/-- A JSON value. A string is the bytes between its quotes, a number the bytes of its numeral. -/
inductive Json where
  | null
  | bool (value : Bool)
  | number (written : Bytes)
  | string (written : Bytes)
  | array (items : List Json)
  | object (members : List (Bytes × Json))
  deriving Inhabited

end Speedtest
