import Speedtest.Telemetry.Record

/-!
# Stores

A store keeps records and finds them again. `Recent` keeps the last ones up to its capacity, newest
first. `Store` is the choice of a backend: one that remembers, one that forgets everything, and two that
stand for a broken backend, of which one answers with an error and one does not come back at all.
-/
namespace Speedtest.Telemetry

/-- Why a store has no answer. -/
inductive StoreError where
  | unknownBackend (name : String)
  | notCompiledIn (name : String)
  | notFound (uuid : String)
  | backend (reason : String)
  deriving DecidableEq

def StoreError.message : StoreError → String
  | .unknownBackend name => "unsupported database type: " ++ name
  | .notCompiledIn name => "database type " ++ name ++ " is not compiled into this build"
  | .notFound uuid => "no record with id " ++ uuid
  | .backend reason => "storage backend error: " ++ reason

/-- The last records, newest first, up to a capacity. -/
structure Recent where
  capacity : Nat
  records : List Record
  length_le : records.length ≤ capacity

namespace Recent

def empty (capacity : Nat) : Recent := ⟨capacity, [], Nat.zero_le _⟩

/-- Adds a record in front, which may push the oldest one out. -/
def insert (s : Recent) (r : Record) : Recent :=
  ⟨s.capacity, (r :: s.records).take s.capacity, List.length_take_le _ _⟩

/-- The newest record with an id. -/
def find? (s : Recent) (uuid : String) : Option Record := s.records.find? (·.uuid == uuid)

/-- The newest records, at most `limit` of them. -/
def last (s : Recent) (limit : Nat) : List Record := s.records.take limit

theorem records_insert (s : Recent) (r : Record) :
    (s.insert r).records = (r :: s.records).take s.capacity := rfl

end Recent

/-- What a call to a store comes to. -/
inductive Outcome (α : Type) where
  | ok (a : α)
  | failed (e : StoreError)
  /-- The call does not return. -/
  | crashed

/-- A store behind the service. -/
inductive Store where
  | recent (s : Recent)
  | forgetful
  | broken (reason : String)
  | crashing

namespace Store

def insert (s : Store) (r : Record) : Outcome Unit × Store :=
  match s with
  | .recent s => (.ok (), .recent (s.insert r))
  | .forgetful => (.ok (), .forgetful)
  | .broken reason => (.failed (.backend reason), s)
  | .crashing => (.crashed, s)

/-- Looks a record up by its id. The forgetful store has the blank record under every id. -/
def find (s : Store) (uuid : String) : Outcome Record :=
  match s with
  | .recent s => match s.find? uuid with
    | some r => .ok r
    | none => .failed (.notFound uuid)
  | .forgetful => .ok .blank
  | .broken reason => .failed (.backend reason)
  | .crashing => .crashed

/-- The newest records, at most `limit` of them. -/
def last (s : Store) (limit : Nat) : Outcome (List Record) :=
  match s with
  | .recent s => .ok (s.last limit)
  | .forgetful => .ok []
  | .broken reason => .failed (.backend reason)
  | .crashing => .crashed

/-- All records that the store could give out, newest first. -/
def records : Store → List Record
  | .recent s => s.records
  | _ => []

end Store

/-- The number of records that a store in memory keeps when it is opened by name. -/
def memoryCapacity : Nat := 10000

/-- The backends that this build has no driver for. -/
def externalNames : List String := ["postgresql", "mysql", "bolt"]

/-- Whether a name is one of a backend, with or without a driver in this build. -/
def isKnownBackend (name : String) : Bool :=
  name == "memory" || name == "none" || externalNames.contains name

def Store.ofName (name : String) : Except StoreError Store :=
  if name = "memory" then .ok (.recent (.empty memoryCapacity))
  else if name = "none" then .ok .forgetful
  else if externalNames.contains name then .error (.notCompiledIn name)
  else .error (.unknownBackend name)

end Speedtest.Telemetry
