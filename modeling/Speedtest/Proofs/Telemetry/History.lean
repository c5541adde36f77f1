import Speedtest.Proofs.Telemetry.Recent
import Speedtest.Telemetry.Guarded

/-!
# What a store in memory answers

A store in memory answers as if it went through all that was ever put into it, newest first, and looked at no more than
its capacity of it. What it answers depends on what was put in and not on what it was asked before.
-/
namespace Speedtest.Telemetry

/-! ## Calls and their answers -/

/-- A call to a store. -/
inductive Call where
  | insert (r : Record)
  | find (uuid : String)
  | last (limit : Nat)

/-- What a call comes to. -/
inductive Reply where
  | inserted (outcome : Outcome Unit)
  | found (outcome : Outcome Record)
  | listed (outcome : Outcome (List Record))

def Call.brings? : Call → Option Record
  | .insert r => some r
  | _ => none

/-- What a run of calls puts in, newest first. -/
def history (calls : List Call) : List Record := (calls.filterMap Call.brings?).reverse

/-- What a call has to come to when so many of the records that were put in, newest first, are within reach. -/
inductive Answers (capacity : Nat) (put : List Record) : Call → Reply → Prop where
  | inserted (r : Record) : Answers capacity put (.insert r) (.inserted (.ok ()))
  | listed (limit : Nat) :
      Answers capacity put (.last limit) (.listed (.ok (put.take (min limit (min capacity put.length)))))
  | found {uuid : String} {newer older : List Record} {r : Record} (within : put.take capacity = newer ++ r :: older)
      (named : r.uuid = uuid) (newest : ∀ other ∈ newer, other.uuid ≠ uuid) :
      Answers capacity put (.find uuid) (.found (.ok r))
  | missed {uuid : String} (none : ∀ r ∈ put.take capacity, r.uuid ≠ uuid) :
      Answers capacity put (.find uuid) (.found (.failed (.notFound uuid)))

/-- A record is missed exactly when none within reach has its identifier. -/
theorem answers_missed_iff {capacity : Nat} {put : List Record} {uuid : String} {reply : Reply}
    (h : Answers capacity put (.find uuid) reply) :
    reply = .found (.failed (.notFound uuid)) ↔ ∀ r ∈ put.take capacity, r.uuid ≠ uuid := by
  cases h with
  | @found _ newer older r within named newest =>
    refine ⟨nofun, fun hnone => absurd named (hnone r ?_)⟩
    rw [within]
    exact List.mem_append_right newer List.mem_cons_self
  | missed none => exact iff_of_true rfl none

namespace Guarded

def start (capacity : Nat) : Guarded := ⟨.empty capacity, false⟩

def call (g : Guarded) : Call → Reply × Guarded
  | .insert r => (.inserted (g.insert r).1, (g.insert r).2)
  | .find uuid => (.found (g.find uuid).1, (g.find uuid).2)
  | .last limit => (.listed (g.last limit).1, (g.last limit).2)

def callAll (g : Guarded) : List Call → List Reply × Guarded
  | [] => ([], g)
  | c :: calls => ((g.call c).1 :: ((g.call c).2.callAll calls).1, ((g.call c).2.callAll calls).2)

/-! ## One call -/

/-- A store holds what is within reach of what was put in, and its lock can be had. -/
structure Holds (capacity : Nat) (put : List Record) (g : Guarded) : Prop where
  sound : g.poisoned = false
  capacity_eq : g.kept.capacity = capacity
  records_eq : g.kept.records = put.take capacity

variable {capacity : Nat} {put : List Record} {g : Guarded}

theorem holds_start (capacity : Nat) : Holds capacity [] (start capacity) := ⟨rfl, rfl, List.take_nil.symm⟩

theorem Holds.insert_eq (h : Holds capacity put g) (r : Record) :
    g.insert r = (.ok (), ⟨g.kept.insert r, false⟩) := by
  simp [insert, hold, h.sound]

theorem Holds.toStore_eq (h : Holds capacity put g) : g.toStore = .recent g.kept := by
  rw [toStore, h.sound]
  rfl

/-- A call that puts nothing in leaves the store as it is. -/
theorem call_of_reads (g : Guarded) {c : Call} (hc : c.brings? = none) : (g.call c).2 = g := by
  cases c with
  | insert r => exact nomatch hc
  | find uuid => exact congrArg Prod.snd (g.find_eq uuid)
  | last limit => exact congrArg Prod.snd (g.last_eq limit)

/-- A call keeps the store at the last records that were put in. -/
theorem Holds.call (h : Holds capacity put g) (c : Call) : Holds capacity (c.brings?.toList ++ put) (g.call c).2 := by
  cases hc : c.brings? with
  | none =>
    rw [call_of_reads g hc]
    exact h
  | some r =>
    obtain rfl : c = .insert r := by
      cases c with
      | insert r' => exact congrArg Call.insert (Option.some.inj hc)
      | find uuid => exact nomatch hc
      | last limit => exact nomatch hc
    have hafter : (g.call (.insert r)).2 = ⟨g.kept.insert r, false⟩ := congrArg Prod.snd (h.insert_eq r)
    rw [hafter]
    constructor
    · rfl
    · exact h.capacity_eq
    · rw [Recent.records_insert, h.capacity_eq, h.records_eq]
      exact Recent.take_append_take capacity [r] put

/-- A call is answered from the last records that were put in. -/
theorem Holds.answers (h : Holds capacity put g) (c : Call) : Answers capacity put c (g.call c).1 := by
  cases c with
  | insert r =>
    rw [Guarded.call, h.insert_eq]
    exact .inserted r
  | last limit =>
    have hwithin : g.kept.last limit = put.take (min limit (min capacity put.length)) := by
      rw [Recent.last, h.records_eq, List.take_take, List.take_eq_take_iff]
      omega
    rw [Guarded.call, g.last_eq, h.toStore_eq, Store.last, hwithin]
    exact .listed limit
  | find uuid =>
    rw [Guarded.call, g.find_eq, h.toStore_eq, Store.find]
    cases hkept : g.kept.find? uuid with
    | none =>
      refine .missed fun r hr => ?_
      rw [← h.records_eq] at hr
      simpa using List.find?_eq_none.1 hkept r hr
    | some r =>
      obtain ⟨hnamed, newer, older, hsplit, hnewer⟩ := List.find?_eq_some_iff_append.1 hkept
      refine .found (h.records_eq.symm.trans hsplit) (by simpa using hnamed) fun other hother => ?_
      simpa using hnewer other hother

/-! ## A run of calls -/

theorem callAll_append (g : Guarded) (front back : List Call) :
    g.callAll (front ++ back) =
      ((g.callAll front).1 ++ ((g.callAll front).2.callAll back).1, ((g.callAll front).2.callAll back).2) := by
  induction front generalizing g with
  | nil => rfl
  | cons c front ih => rw [List.cons_append, callAll, callAll, ih]; rfl

theorem length_callAll (g : Guarded) (calls : List Call) : (g.callAll calls).1.length = calls.length := by
  induction calls generalizing g with
  | nil => rfl
  | cons c calls ih => rw [callAll, List.length_cons, ih, List.length_cons]

theorem Holds.callAll (h : Holds capacity put g) (calls : List Call) :
    Holds capacity (history calls ++ put) (g.callAll calls).2 := by
  induction calls generalizing put g with
  | nil => exact h
  | cons c calls ih =>
    have hsplit : history (c :: calls) ++ put = history calls ++ (c.brings?.toList ++ put) := by
      rw [history, List.filterMap_cons]
      cases c.brings? <;> simp [history]
    rw [hsplit]
    exact ih (h.call c)

/-- Behind any run of calls to a store that started out empty, a call is answered from what the run put in, newest first
and up to the capacity; a record is missed exactly when none of these has its identifier. Leaving out a call that puts
nothing in changes no answer to another one. -/
theorem calls_answered (capacity : Nat) (front : List Call) (c : Call) (back : List Call) :
    (∃ reply, ((start capacity).callAll (front ++ c :: back)).1[front.length]? = some reply ∧
      Answers capacity (history front) c reply ∧
      ∀ uuid, c = .find uuid → (reply = .found (.failed (.notFound uuid)) ↔
        ∀ r ∈ (history front).take capacity, r.uuid ≠ uuid)) ∧
    ((start capacity).callAll front).2.kept.records = (history front).take capacity ∧
    (c.brings? = none → ((start capacity).callAll (front ++ back)).1 =
      ((start capacity).callAll (front ++ c :: back)).1.eraseIdx front.length) := by
  have hholds := (holds_start capacity).callAll front
  rw [List.append_nil] at hholds
  have hlength := length_callAll (start capacity) front
  -- The replies to `front`, to `c` and to `back`, each from the store that the calls before have left.
  have hreplies : ((start capacity).callAll (front ++ c :: back)).1 = ((start capacity).callAll front).1 ++
      (((start capacity).callAll front).2.call c).1 ::
        ((((start capacity).callAll front).2.call c).2.callAll back).1 := by
    rw [callAll_append, Guarded.callAll]
  have hanswers := hholds.answers c
  refine ⟨⟨_, ?_, hanswers, ?_⟩, hholds.records_eq, fun hreads => ?_⟩
  · rw [hreplies, List.getElem?_append_right (Nat.le_of_eq hlength), hlength, Nat.sub_self]
    rfl
  · rintro uuid rfl
    exact answers_missed_iff hanswers
  · rw [hreplies, call_of_reads _ hreads, ← hlength, List.eraseIdx_append_of_length_le (Nat.le_refl _), Nat.sub_self,
      callAll_append]
    rfl

/-- A record with nothing in it but an identifier. -/
def named (uuid : String) : Record := { Record.blank with uuid }

/-- Three records for a store of two, of which the last two have one identifier. -/
def crowded : List Call := [.insert (named "a"), .last 7, .insert (named "b"), .insert (named "b")]

/-- A store for two records that three are put into, under two identifiers. -/
theorem calls_answered_crowded :
    ((start 2).callAll crowded).2.kept.records = [named "b", named "b"] ∧
    ((start 2).callAll (crowded ++ [.find "a", .find "b"])).1[4]? = some (.found (.failed (.notFound "a"))) ∧
    ((start 2).callAll (crowded ++ [.find "b"])).1 =
      ((start 2).callAll (crowded ++ [.find "a", .find "b"])).1.eraseIdx 4 := by
  obtain ⟨⟨reply, hreply, -, hmissed⟩, hkept, hreads⟩ := calls_answered 2 crowded (.find "a") [.find "b"]
  have hnone : ∀ r ∈ (history crowded).take 2, r.uuid ≠ "a" := by decide
  refine ⟨hkept, ?_, hreads rfl⟩
  rw [(hmissed "a" rfl).2 hnone] at hreply
  exact hreply

end Guarded
end Speedtest.Telemetry
