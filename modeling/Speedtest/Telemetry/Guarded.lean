import Speedtest.Telemetry.Store

/-!
# Records behind a lock

The records of a store in memory are behind a lock, which every call holds while it looks at them. A call that
crashes with the lock in its hands leaves it poisoned, and from then on nobody gets it. None of the calls of a store
does crash then, so what is behind the lock is a store that remembers, and stays one.
-/
namespace Speedtest.Telemetry

/-- Records and whether the lock in front of them is poisoned. -/
structure Guarded where
  kept : Recent
  poisoned : Bool

namespace Guarded

/-- Holds the lock for as long as something is done with the records, which may crash and is then `none`. -/
def hold {α : Type} (g : Guarded) (act : Recent → Option α × Recent) : Outcome α × Guarded :=
  if g.poisoned then (.failed (.backend "memory store mutex poisoned"), g)
  else match act g.kept with
    | (some a, kept) => (.ok a, ⟨kept, false⟩)
    | (none, kept) => (.crashed, ⟨kept, true⟩)

def insert (g : Guarded) (r : Record) : Outcome Unit × Guarded := g.hold fun kept => (some (), kept.insert r)

def find (g : Guarded) (uuid : String) : Outcome Record × Guarded :=
  match g.hold fun kept => (some (kept.find? uuid), kept) with
  | (.ok (some r), g) => (.ok r, g)
  | (.ok none, g) => (.failed (.notFound uuid), g)
  | (.failed e, g) => (.failed e, g)
  | (.crashed, g) => (.crashed, g)

/-- The newest records, at most `limit` of them. -/
def last (g : Guarded) (limit : Nat) : Outcome (List Record) × Guarded :=
  g.hold fun kept => (some (kept.last limit), kept)

/-- The store that is behind the lock. -/
def toStore (g : Guarded) : Store :=
  if g.poisoned then .broken "memory store mutex poisoned" else .recent g.kept

theorem insert_eq (g : Guarded) (r : Record) :
    (g.insert r).1 = (g.toStore.insert r).1 ∧ (g.insert r).2.toStore = (g.toStore.insert r).2 ∧
      (g.insert r).2.poisoned = g.poisoned := by
  obtain ⟨kept, poisoned⟩ := g
  cases poisoned <;> exact ⟨rfl, rfl, rfl⟩

theorem find_eq (g : Guarded) (uuid : String) : g.find uuid = (g.toStore.find uuid, g) := by
  obtain ⟨kept, poisoned⟩ := g
  cases poisoned with
  | true => rfl
  | false =>
    cases h : kept.find? uuid with
    | none => simp [find, hold, toStore, Store.find, h]
    | some r => simp [find, hold, toStore, Store.find, h]

theorem last_eq (g : Guarded) (limit : Nat) : g.last limit = (g.toStore.last limit, g) := by
  obtain ⟨kept, poisoned⟩ := g
  cases poisoned <;> rfl

end Guarded
end Speedtest.Telemetry
