import Speedtest.Toml.Value

/-!
# Tables under construction

While a document is read, a table remembers how it came about, because that decides what may still be
added to it: by a header or as an inline table, on the way to a header below it, or by a dotted key. A
name that stands for a value, or for a table that is closed to what is asked, refuses.
-/
namespace Speedtest.Toml

/-- How a table came about. -/
inductive Origin where
  | declared
  | implied
  | dotted
  deriving DecidableEq

/-- What a name stands for in a table under construction. -/
inductive Node where
  | leaf (v : Value)
  | table (origin : Origin) (members : List (String × Node))
  /-- Tables under one name, the last of which is the one that grows. The newest comes first. -/
  | tables (newest : List (String × Node)) (older : List (List (String × Node)))

/-- The members of a table under construction. -/
abbrev Draft := List (String × Node)

mutual

def Node.value : Node → Value
  | .leaf v => v
  | .table _ members => .table (finish members)
  | .tables newest older => .array ((finishAll older).reverse ++ [.table (finish newest)])

def finish : List (String × Node) → List (String × Value)
  | [] => []
  | (name, node) :: rest => (name, node.value) :: finish rest

/-- The tables of a list, in the order of the list. -/
def finishAll : List (List (String × Node)) → List Value
  | [] => []
  | members :: rest => .table (finish members) :: finishAll rest

end

namespace Draft

/-- The draft with a name set to a node. A name that is there keeps its place. -/
def set (d : Draft) (name : String) (n : Node) : Draft :=
  if (d.lookup name).isSome then d.map fun m => if m.1 == name then (name, n) else m
  else d ++ [(name, n)]

/-- Adds a value by a key of names with dots between them. The tables on the way have to be made by such
keys; one that a header passed through may be passed through as well. -/
def addValue (d : Draft) (path : List String) (v : Value) : Option Draft :=
  match path with
  | [] => none
  | [name] => if (d.lookup name).isSome then none else some (d ++ [(name, .leaf v)])
  | name :: (next :: rest) =>
    match d.lookup name with
    | none => (addValue [] (next :: rest) v).map fun t => d.set name (.table .dotted t)
    | some (.leaf _) => none
    | some (.table .declared _) => none
    | some (.table .implied t) =>
      if rest.isEmpty then none
      else (addValue t (next :: rest) v).map fun t => d.set name (.table .implied t)
    | some (.table .dotted t) =>
      (addValue t (next :: rest) v).map fun t => d.set name (.table .dotted t)
    | some (.tables newest older) =>
      if rest.isEmpty then none
      else (addValue newest (next :: rest) v).map fun t => d.set name (.tables t older)

/-- Changes the table at a path of names, making the tables on the way. Under a name that stands for
several tables the newest is meant. -/
def update (d : Draft) (path : List String) (f : Draft → Option Draft) : Option Draft :=
  match path with
  | [] => f d
  | name :: rest =>
    match d.lookup name with
    | none => (update [] rest f).map fun t => d.set name (.table .implied t)
    | some (.leaf _) => none
    | some (.table origin t) => (update t rest f).map fun t => d.set name (.table origin t)
    | some (.tables newest older) => (update newest rest f).map fun t => d.set name (.tables t older)

def declare (d : Draft) (path : List String) : Option Draft :=
  match path.getLast? with
  | none => none
  | some name =>
    d.update path.dropLast fun parent =>
      match parent.lookup name with
      | none => some (parent.set name (.table .declared []))
      | some (.table .implied t) => some (parent.set name (.table .declared t))
      | some _ => none

/-- Declares one more table of an array by its header. -/
def declareAnother (d : Draft) (path : List String) : Option Draft :=
  match path.getLast? with
  | none => none
  | some name =>
    d.update path.dropLast fun parent =>
      match parent.lookup name with
      | none => some (parent.set name (.tables [] []))
      | some (.tables newest older) => some (parent.set name (.tables [] (newest :: older)))
      | some _ => none

end Draft
end Speedtest.Toml
