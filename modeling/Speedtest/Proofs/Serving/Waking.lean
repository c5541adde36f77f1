import Mathlib.Data.Set.Card
import Speedtest.Serving.Shutdown

/-!
# Who is woken

Handles are copied and dropped, waiters are made, asked and dropped, and shutdown is asked for, in any order. What took
place is written down as a log, and the log alone says who is there and who has been woken: a waiter is woken exactly
when shutdown was asked for since it was made, or when no handle is left. The channel holds one message and takes none
while nobody waits, but no waiter misses its message by that: a message that is overwritten is still one that was
sent after the waiter was made, and a message that is not sent had no waiter.
-/
namespace Speedtest.Serving.Shutdown

/-- What is done with a coordinator, by the number of a handle or of a waiter. -/
inductive Request where
  | wait (h : Nat)
  | clone (h : Nat)
  | trigger (h : Nat)
  | poll (w : Nat)
  | forget (w : Nat)
  | drop (h : Nat)

/-- What took place. -/
inductive Event where
  | made (h : Nat)
  | created (w : Nat)
  | triggered
  | woken (w : Nat)
  | forgotten (w : Nat)
  | dropped (h : Nat)
  deriving DecidableEq

variable {s : Shutdown} {log : List Event} {e : Event} {h w n position : Nat}

def after (s : Shutdown) : Request → Shutdown
  | .wait h => (s.wait h).2
  | .clone h => (s.clone h).2
  | .trigger h => (s.trigger h).2
  | .poll w => (s.poll w).2
  | .forget w => (s.forget w).2
  | .drop h => (s.drop h).2

/-- What takes place on a request, as its answer tells. -/
def events (s : Shutdown) : Request → List Event
  | .wait h => ((s.wait h).1.map Event.created).toList
  | .clone h => ((s.clone h).1.map Event.made).toList
  | .trigger h => if (s.trigger h).1 then [.triggered] else []
  | .poll w => if (s.poll w).1 = some true then [.woken w] else []
  | .forget w => if (s.forget w).1 then [.forgotten w] else []
  | .drop h => if (s.drop h).1 then [.dropped h] else []

def run (requests : List Request) : Shutdown := requests.foldl after start

def eventsOf : Shutdown → List Request → List Event
  | _, [] => []
  | s, r :: requests => s.events r ++ eventsOf (s.after r) requests

/-- All that took place from the start, where the first handle was made. -/
def logOf (requests : List Request) : List Event := .made 0 :: eventsOf start requests

/-! ## What a log says -/

/-- A handle is there that was made and not dropped. -/
def Present (log : List Event) (h : Nat) : Prop := .made h ∈ log ∧ .dropped h ∉ log

/-- A waiter is there that was created and neither woken nor dropped. -/
def Pending (log : List Event) (w : Nat) : Prop := .created w ∈ log ∧ .woken w ∉ log ∧ .forgotten w ∉ log

instance : Decidable (Present log h) := inferInstanceAs (Decidable (_ ∧ _))

instance : Decidable (Pending log w) := inferInstanceAs (Decidable (_ ∧ _ ∧ _))

/-- Shutdown was asked for after the waiter was created. -/
def TriggeredSince (log : List Event) (w : Nat) : Prop :=
  ∃ before after, log = before ++ .created w :: after ∧ .triggered ∈ after

/-- A waiter is to be woken when shutdown was asked for since it was created, or when no handle is left. -/
def Due (log : List Event) (w : Nat) : Prop := TriggeredSince log w ∨ ∀ h, ¬ Present log h

theorem TriggeredSince.created_mem (h : TriggeredSince log w) : .created w ∈ log := by
  obtain ⟨before, after, rfl, -⟩ := h
  exact List.mem_append_right _ List.mem_cons_self

/-- One more event counts for the waiters that are created by then, if it is that shutdown is asked for. -/
theorem triggeredSince_concat :
    TriggeredSince (log ++ [e]) w ↔ TriggeredSince log w ∨ e = .triggered ∧ .created w ∈ log := by
  constructor
  · rintro ⟨before, after, hlog, hafter⟩
    obtain ⟨front, last, rfl⟩ := List.eq_nil_or_concat after |>.resolve_left (List.ne_nil_of_mem hafter)
    rw [List.concat_eq_append] at hlog hafter
    rw [← List.cons_append, ← List.append_assoc] at hlog
    obtain ⟨rfl, hlast⟩ := List.append_inj' hlog rfl
    obtain rfl := List.singleton_inj.1 hlast
    rcases List.mem_append.1 hafter with hmem | hmem
    · exact .inl ⟨before, front, rfl, hmem⟩
    · exact .inr ⟨(List.mem_singleton.1 hmem).symm, List.mem_append_right _ List.mem_cons_self⟩
  · rintro (⟨before, after, rfl, hafter⟩ | ⟨rfl, hmem⟩)
    · exact ⟨before, after ++ [e], by simp, List.mem_append_left _ hafter⟩
    · obtain ⟨before, after, rfl⟩ := List.append_of_mem hmem
      exact ⟨before, after ++ [.triggered], by simp, by simp⟩

theorem TriggeredSince.append (h : TriggeredSince log w) (more : List Event) : TriggeredSince (log ++ more) w := by
  obtain ⟨before, after, rfl, hafter⟩ := h
  exact ⟨before, after ++ more, by simp, List.mem_append_left _ hafter⟩

theorem triggeredSince_concat_of_ne (h : e ≠ .triggered) : TriggeredSince (log ++ [e]) w ↔ TriggeredSince log w := by
  rw [triggeredSince_concat]
  simp [h]

/-! ## Numbered lists

Handles and waiters are kept in the same way: under the number that each got when it was made, until a mark stands in
its place. -/

/-- A list of what was made, with a mark for what is gone, as a log tells of it. -/
structure Listed {α : Type} (l : List α) (gone : α) (made : Nat → Event) (ends : Nat → Event → Prop)
    (log : List Event) : Prop where
  none_iff : ∀ i : Nat, l[i]? = none ↔ made i ∉ log
  gone_iff : ∀ i : Nat, l[i]? = some gone ↔ ∃ e ∈ log, ends i e

namespace Listed

variable {α : Type} {l : List α} {gone a : α} {made : Nat → Event} {ends : Nat → Event → Prop} {i : Nat}

theorem there_iff (hl : Listed l gone made ends log) :
    (∃ a, l[i]? = some a ∧ a ≠ gone) ↔ made i ∈ log ∧ ∀ e ∈ log, ¬ ends i e := by
  have hgone : (∀ e ∈ log, ¬ ends i e) ↔ l[i]? ≠ some gone := by
    rw [ne_eq, hl.gone_iff]
    push Not
    rfl
  rw [hgone, ← not_not (a := made i ∈ log), ← hl.none_iff]
  cases l[i]? with
  | none => simp
  | some a => simp

/-- Something new goes to the end and gets the next number. -/
theorem concat (hl : Listed l gone made ends log) (ha : a ≠ gone) (hmade : Function.Injective made)
    (hends : ∀ i j, ¬ ends i (made j)) : Listed (l ++ [a]) gone made ends (log ++ [made l.length]) := by
  refine ⟨fun i => ?_, fun i => ?_⟩
  · have hold := hl.none_iff i
    rw [List.getElem?_eq_none_iff] at hold ⊢
    rw [List.mem_append, List.mem_singleton, hmade.eq_iff, not_or, ← hold, List.length_append, List.length_singleton]
    omega
  · have hnew : (∃ e ∈ log ++ [made l.length], ends i e) ↔ ∃ e ∈ log, ends i e := by
      simp [or_and_right, exists_or, hends]
    rw [hnew, ← hl.gone_iff, List.getElem?_append]
    split
    case isTrue => rfl
    case isFalse hi =>
      rw [List.getElem?_eq_none (not_lt.1 hi)]
      cases i - l.length <;> simp [ha]

/-- What ends is marked. -/
theorem set (hl : Listed l gone made ends log) (hi : i < l.length) (hends : ∀ j, ends j e ↔ i = j)
    (hmade : ∀ j, made j ≠ e) : Listed (l.set i gone) gone made ends (log ++ [e]) := by
  refine ⟨fun j => ?_, fun j => ?_⟩
  · have hold := hl.none_iff j
    rw [List.getElem?_eq_none_iff] at hold ⊢
    rw [List.mem_append, List.mem_singleton, not_or, ← hold, List.length_set]
    simp [hmade]
  · have hnew : (∃ f ∈ log ++ [e], ends j f) ↔ (∃ f ∈ log, ends j f) ∨ i = j := by
      simp [or_and_right, exists_or, hends]
    rw [hnew, ← hl.gone_iff, List.getElem?_set, if_pos hi]
    split <;> simp [*]

/-- Another event leaves the list. -/
theorem other (hl : Listed l gone made ends log) (hends : ∀ j, ¬ ends j e) (hmade : ∀ j, made j ≠ e) :
    Listed l gone made ends (log ++ [e]) := by
  refine ⟨fun j => ?_, fun j => ?_⟩
  · rw [hl.none_iff, List.mem_append, List.mem_singleton, not_or]
    simp [hmade]
  · rw [hl.gone_iff]
    simp [or_and_right, exists_or, hends]

end Listed

def numbers (l : List (Option Nat)) : Set Nat := {w | ∃ position, l[w]? = some (some position)}

theorem numbers_concat (l : List (Option Nat)) (a : Option Nat) :
    numbers (l ++ [a]) = {w | w ∈ numbers l ∨ w = l.length ∧ a ≠ none} := by
  ext w
  simp only [numbers, Set.mem_ofPred_eq, List.getElem?_append]
  split
  case isTrue hlt => simp [hlt.ne]
  case isFalse hlt =>
    have hnone : l[w]? = none := List.getElem?_eq_none (not_lt.1 hlt)
    have hlast : w - l.length = 0 ↔ w = l.length := by omega
    simp [hnone, List.getElem?_singleton, hlast, Option.ne_none_iff_exists']

theorem finite_numbers (l : List (Option Nat)) : (numbers l).Finite :=
  (Set.finite_lt_nat l.length).subset fun _ ⟨_, hw⟩ => (List.getElem?_eq_some_iff.1 hw).1

/-- As many entries are there as there are numbers of such entries. -/
theorem countP_eq_ncard (l : List (Option Nat)) : l.countP Option.isSome = (numbers l).ncard := by
  induction l using List.reverseRecOn with
  | nil => simp [numbers]
  | append_singleton l a ih =>
    rw [List.countP_append, ih, numbers_concat]
    cases a with
    | none => simp
    | some position =>
      have hnew : l.length ∉ numbers l := fun ⟨_, hw⟩ => absurd (List.getElem?_eq_some_iff.1 hw).1 (lt_irrefl _)
      have hinsert : {w | w ∈ numbers l ∨ w = l.length ∧ some position ≠ none} = insert l.length (numbers l) := by
        ext w
        simp [or_comm]
      rw [hinsert, Set.ncard_insert_of_notMem hnew (finite_numbers l)]
      rfl

/-! ## The coordinator and its log -/

/-- The events that end a handle. -/
def EndsHandle (h : Nat) (e : Event) : Prop := e = .dropped h

/-- The events that end a waiter. -/
def EndsWaiter (w : Nat) (e : Event) : Prop := e = .woken w ∨ e = .forgotten w

/-- A coordinator stands as its log says. -/
structure Follows (s : Shutdown) (log : List Event) : Prop where
  handles : Listed s.handles false .made EndsHandle log
  waiters : Listed s.waiters none .created EndsWaiter log
  /-- A waiter is behind the channel exactly when a message was sent since it was created. -/
  behind : ∀ w position : Nat, s.waiters[w]? = some (some position) →
    position ≤ s.channel.next ∧ (position < s.channel.next ↔ TriggeredSince log w)
  held : ∀ n, s.channel.held = some n ↔ s.channel.next = n + 1
  senders : s.channel.senders = s.handles.count true
  receivers : s.channel.receivers = s.waiters.countP Option.isSome

theorem follows_start : Follows start [.made 0] := by
  refine ⟨⟨fun h => ?_, fun h => ?_⟩, ⟨fun w => ?_, fun w => ?_⟩, fun w position => ?_, fun n => ?_, rfl, rfl⟩
  · cases h <;> simp [start]
  · cases h <;> simp [start, EndsHandle]
  · simp [start]
  · simp [start, EndsWaiter]
  · simp [start]
  · simp [start]

namespace Follows

theorem hasHandle_iff (hs : Follows s log) : s.hasHandle h = true ↔ Present log h := by
  have hends : (∀ e ∈ log, ¬ EndsHandle h e) ↔ .dropped h ∉ log := List.forall_mem_ne'
  rw [Present, ← hends, ← hs.handles.there_iff, hasHandle, beq_iff_eq]
  simp

theorem pending_iff (hs : Follows s log) : Pending log w ↔ ∃ position, s.waiters[w]? = some (some position) := by
  have hends : (∀ e ∈ log, ¬ EndsWaiter w e) ↔ .woken w ∉ log ∧ .forgotten w ∉ log := by
    simp only [EndsWaiter, not_or, forall_and, List.forall_mem_ne']
  rw [Pending, ← hends, ← hs.waiters.there_iff]
  constructor
  · rintro ⟨there, hw, hthere⟩
    obtain ⟨position, rfl⟩ := Option.ne_none_iff_exists'.1 hthere
    exact ⟨position, hw⟩
  · rintro ⟨position, hw⟩
    exact ⟨_, hw, nofun⟩

/-! ### What each request does -/

/-- A message is sent if there is a waiter, and then all waiters are behind it. -/
theorem triggered (hs : Follows s log) : Follows { s with channel := s.channel.send } (log ++ [.triggered]) := by
  refine ⟨hs.handles.other nofun nofun, hs.waiters.other nofun nofun, fun w position hw => ?_, fun n => ?_, ?_, ?_⟩
  · have hreceivers : s.channel.receivers ≠ 0 := by
      rw [hs.receivers, Nat.ne_zero_iff_zero_lt, List.countP_pos_iff]
      exact ⟨_, List.mem_of_getElem? hw, rfl⟩
    have hsince : TriggeredSince (log ++ [.triggered]) w := by
      rw [triggeredSince_concat]
      exact .inr ⟨rfl, (hs.pending_iff.2 ⟨position, hw⟩).1⟩
    have hle := (hs.behind w position hw).1
    rw [Channel.send, if_neg hreceivers]
    exact ⟨hle.trans (Nat.le_succ _), iff_of_true (Nat.lt_succ_of_le hle) hsince⟩
  · rw [Channel.send]
    split
    · exact hs.held n
    · simp
  · rw [← hs.senders, Channel.send]
    split <;> rfl
  · rw [← hs.receivers, Channel.send]
    split <;> rfl

/-- A new waiter starts behind what was sent before it. -/
theorem created (hs : Follows s log) :
    Follows { s with channel := s.channel.subscribe, waiters := s.waiters ++ [some s.channel.next] }
      (log ++ [.created s.waiters.length]) := by
  refine ⟨hs.handles.other nofun nofun, hs.waiters.concat nofun (fun _ _ => Event.created.inj) nofun,
    fun w position hw => ?_, hs.held, hs.senders, ?_⟩
  · rw [triggeredSince_concat_of_ne (e := .created _) nofun]
    rw [List.getElem?_append] at hw
    split at hw
    case isTrue => exact hs.behind w position hw
    case isFalse hlength =>
      have hnew : .created w ∉ log := (hs.waiters.none_iff w).1 (List.getElem?_eq_none (not_lt.1 hlength))
      rw [List.getElem?_singleton] at hw
      split at hw
      case isFalse => exact nomatch hw
      obtain rfl := Option.some.inj (Option.some.inj hw)
      exact ⟨le_rfl, iff_of_false (lt_irrefl _) fun hsince => hnew hsince.created_mem⟩
  · rw [List.countP_append, ← hs.receivers]
    rfl

theorem made (hs : Follows s log) :
    Follows { s with channel := s.channel.addSender, handles := s.handles ++ [true] }
      (log ++ [.made s.handles.length]) := by
  refine ⟨hs.handles.concat nofun (fun _ _ => Event.made.inj) nofun, hs.waiters.other nofun nofun,
    fun w position hw => ?_, hs.held, ?_, hs.receivers⟩
  · rw [triggeredSince_concat_of_ne (e := .made _) nofun]
    exact hs.behind w position hw
  · rw [List.count_append, ← hs.senders]
    rfl

theorem dropped (hs : Follows s log) (hh : s.hasHandle h = true) :
    Follows { s with channel := s.channel.removeSender, handles := s.handles.set h false } (log ++ [.dropped h]) := by
  rw [hasHandle, beq_iff_eq] at hh
  obtain ⟨hlt, hget⟩ := List.getElem?_eq_some_iff.1 hh
  refine ⟨hs.handles.set hlt (fun j => ?_) nofun, hs.waiters.other nofun nofun, fun w position hw => ?_, hs.held, ?_,
    hs.receivers⟩
  · rw [EndsHandle, Event.dropped.injEq]
  · rw [triggeredSince_concat_of_ne (e := .dropped _) nofun]
    exact hs.behind w position hw
  · rw [List.count_set hlt, ← hs.senders, hget]
    rfl

/-- A waiter that ends leaves the others where they are. -/
theorem withoutWaiter (hs : Follows s log) (hw : s.waiters[w]? = some (some position)) (he : EndsWaiter w e) :
    Follows (s.withoutWaiter w) (log ++ [e]) := by
  obtain ⟨hlt, hget⟩ := List.getElem?_eq_some_iff.1 hw
  have hother : e ≠ .triggered ∧ (∀ j, .made j ≠ e) ∧ (∀ j, .created j ≠ e) ∧ (∀ j, ¬ EndsHandle j e) ∧
      ∀ j, EndsWaiter j e ↔ w = j := by
    rcases he with rfl | rfl <;> simp [EndsHandle, EndsWaiter]
  obtain ⟨htriggered, hmade, hcreated, hends, hendsWaiter⟩ := hother
  refine ⟨hs.handles.other hends hmade, hs.waiters.set hlt hendsWaiter hcreated, fun v position hv => ?_, hs.held,
    hs.senders, ?_⟩
  · rw [triggeredSince_concat_of_ne htriggered]
    have hne : w ≠ v := by
      rintro rfl
      rw [Shutdown.withoutWaiter, List.getElem?_set_self hlt] at hv
      exact nomatch hv
    rw [Shutdown.withoutWaiter, List.getElem?_set_ne hne] at hv
    exact hs.behind v position hv
  · show s.channel.receivers - 1 = (s.waiters.set w none).countP Option.isSome
    rw [List.countP_set hlt, ← hs.receivers, hget]
    rfl

theorem after (hs : Follows s log) (r : Request) : Follows (s.after r) (log ++ s.events r) := by
  cases r with
  | wait h =>
    by_cases hh : s.hasHandle h = true
    · simpa [Shutdown.after, events, wait, hh] using hs.created
    · simpa [Shutdown.after, events, wait, hh] using hs
  | clone h =>
    by_cases hh : s.hasHandle h = true
    · simpa [Shutdown.after, events, clone, hh] using hs.made
    · simpa [Shutdown.after, events, clone, hh] using hs
  | trigger h =>
    by_cases hh : s.hasHandle h = true
    · simpa [Shutdown.after, events, trigger, hh] using hs.triggered
    · simpa [Shutdown.after, events, trigger, hh] using hs
  | poll w =>
    cases hw : s.waiters[w]? with
    | none => simpa [Shutdown.after, events, poll, hw] using hs
    | some there =>
      cases there with
      | none => simpa [Shutdown.after, events, poll, hw] using hs
      | some position =>
        by_cases hempty : s.channel.receive position = .empty
        · simpa [Shutdown.after, events, poll, hw, hempty] using hs
        · simpa [Shutdown.after, events, poll, hw, hempty] using hs.withoutWaiter hw (.inl rfl)
  | forget w =>
    cases hw : s.waiters[w]? with
    | none => simpa [Shutdown.after, events, forget, hw] using hs
    | some there =>
      cases there with
      | none => simpa [Shutdown.after, events, forget, hw] using hs
      | some position => simpa [Shutdown.after, events, forget, hw] using hs.withoutWaiter hw (.inr rfl)
  | drop h =>
    by_cases hh : s.hasHandle h = true
    · simpa [Shutdown.after, events, drop, hh] using hs.dropped hh
    · simpa [Shutdown.after, events, drop, hh] using hs

theorem requests (hs : Follows s log) (requests : List Request) :
    Follows (requests.foldl Shutdown.after s) (log ++ eventsOf s requests) := by
  induction requests generalizing s log with
  | nil => rwa [eventsOf, List.append_nil]
  | cons r requests ih =>
    rw [eventsOf, ← List.append_assoc]
    exact ih (hs.after r)

end Follows

theorem follows_run (requests : List Request) : Follows (run requests) (logOf requests) :=
  follows_start.requests requests

/-! ## What the coordinator answers -/

theorem vacant_eq_empty_iff (c : Channel) : c.vacant = .empty ↔ c.senders ≠ 0 := by
  rw [Channel.vacant]
  split <;> simp [*]

/-- A receiver that is behind finds a message, or finds that it missed one. -/
theorem receive_eq_empty_iff {c : Channel} (hheld : ∀ n, c.held = some n ↔ c.next = n + 1)
    (position : Nat) : c.receive position = .empty ↔ ¬ position < c.next ∧ c.senders ≠ 0 := by
  rw [Channel.receive]
  cases hc : c.held with
  | none =>
    have hnext : c.next = 0 := by
      by_contra hne
      obtain ⟨n, hn⟩ := Nat.exists_eq_succ_of_ne_zero hne
      rw [(hheld n).2 hn] at hc
      exact nomatch hc
    rw [← vacant_eq_empty_iff]
    simp [hnext]
  | some n =>
    have hnext : c.next = n + 1 := (hheld n).1 hc
    rw [← vacant_eq_empty_iff, hnext]
    dsimp only
    split
    case isTrue hlt => simp [Nat.not_lt.2 (Nat.succ_le_of_lt hlt)]
    case isFalse hle =>
      have hlt : position < n + 1 := Nat.lt_succ_of_le (not_lt.1 hle)
      split <;> simp [hlt]

namespace Follows

theorem senders_ne_zero_iff (hs : Follows s log) : s.channel.senders ≠ 0 ↔ ∃ h, Present log h := by
  rw [hs.senders, Nat.ne_zero_iff_zero_lt, List.count_pos_iff, List.mem_iff_getElem?]
  refine exists_congr fun h => ?_
  rw [← hs.hasHandle_iff, hasHandle, beq_iff_eq]

theorem poll_iff (hs : Follows s log) (hw : Pending log w) :
    ((s.poll w).1 = some true ↔ Due log w) ∧ ((s.poll w).1 = some false ↔ ¬ Due log w) := by
  obtain ⟨position, hposition⟩ := hs.pending_iff.1 hw
  obtain ⟨-, hlt⟩ := hs.behind w position hposition
  have hempty : s.channel.receive position = .empty ↔ ¬ Due log w := by
    rw [receive_eq_empty_iff hs.held, hlt, hs.senders_ne_zero_iff, Due, not_or, not_forall_not]
  rw [poll, hposition]
  by_cases hdue : Due log w
  · simp [hempty, hdue]
  · simp [hempty, hdue]

theorem receiverCount_eq (hs : Follows s log) (hh : Present log h) :
    s.receiverCount = some {w | Pending log w}.ncard := by
  have hany : s.handles.any id = true := by
    rw [List.any_eq_true]
    have hthere := hs.hasHandle_iff.2 hh
    rw [hasHandle, beq_iff_eq] at hthere
    exact ⟨true, List.mem_of_getElem? hthere, rfl⟩
  have hpending : {w | Pending log w} = numbers s.waiters := Set.ext fun w => hs.pending_iff
  rw [receiverCount, if_pos hany, hs.receivers, countP_eq_ncard, hpending]

/-- A waiter that is new waits, whatever took place before. -/
theorem poll_new (hs : Follows s log) (hwait : (s.wait h).1 = some w) : ((s.wait h).2.poll w).1 = some false := by
  have hh : s.hasHandle h = true := by
    by_contra hno
    simp [wait, hno] at hwait
  rw [wait, if_pos hh] at hwait ⊢
  obtain rfl := Option.some.inj hwait
  have hnew := hs.created
  have hpending : Pending (log ++ [.created s.waiters.length]) s.waiters.length :=
    hnew.pending_iff.2 ⟨s.channel.next, List.getElem?_concat_length⟩
  refine (hnew.poll_iff hpending).2.2 ?_
  rintro (hsince | hnone)
  · rw [triggeredSince_concat_of_ne (e := .created _) nofun] at hsince
    exact (hs.waiters.none_iff _).1 (List.getElem?_eq_none le_rfl) hsince.created_mem
  · exact hnone h (hnew.hasHandle_iff.1 hh)

end Follows

theorem eventsOf_append (s : Shutdown) (requests more : List Request) :
    eventsOf s (requests ++ more) = eventsOf s requests ++ eventsOf (requests.foldl after s) more := by
  induction requests generalizing s with
  | nil => rfl
  | cons r requests ih => rw [List.cons_append, eventsOf, eventsOf, ih, List.append_assoc, List.foldl_cons]

theorem logOf_append (requests more : List Request) :
    logOf (requests ++ more) = logOf requests ++ eventsOf (run requests) more := by
  rw [logOf, eventsOf_append]
  rfl

/-- Whatever is done and in whatever order: a waiter that is asked has been woken exactly when shutdown was asked for
since it was created or no handle is left, and the count is that of the waiters that are there. So a new waiter has not
been woken by what came before it, and one that has been woken stays so until it is asked. -/
theorem waking (requests : List Request) :
    (∀ w, Pending (logOf requests) w →
      (((run requests).poll w).1 = some true ↔ Due (logOf requests) w) ∧
      (((run requests).poll w).1 = some false ↔ ¬ Due (logOf requests) w)) ∧
    (∀ h, Present (logOf requests) h → (run requests).receiverCount = some {w | Pending (logOf requests) w}.ncard) ∧
    (∀ h w, ((run requests).wait h).1 = some w → ((run (requests ++ [.wait h])).poll w).1 = some false) ∧
    (∀ w more, TriggeredSince (logOf requests) w → Pending (logOf (requests ++ more)) w →
      ((run (requests ++ more)).poll w).1 = some true) := by
  have hs := follows_run requests
  refine ⟨fun w hw => hs.poll_iff hw, fun h hh => hs.receiverCount_eq hh, fun h w hwait => ?_,
    fun w more hsince hw => ?_⟩
  · rw [run, List.foldl_append]
    exact hs.poll_new hwait
  · refine ((follows_run _).poll_iff hw).1.2 (.inl ?_)
    rw [logOf_append]
    exact hsince.append _

/-- Two messages for one waiter, of which the channel holds the last, before another waiter is created. -/
theorem waking_overwritten :
    let requests : List Request := [.wait 0, .trigger 0, .trigger 0]
    ((run requests).poll 0).1 = some true ∧
      (run requests).receiverCount = some {w | Pending (logOf requests) w}.ncard ∧
      ((run (requests ++ [.wait 0])).poll 1).1 = some false ∧
      ((run (requests ++ [.wait 0, .drop 0])).poll 0).1 = some true := by
  intro requests
  have hsince : TriggeredSince (logOf requests) 0 :=
    ⟨[.made 0], [.triggered, .triggered], by decide, List.mem_cons_self⟩
  obtain ⟨hpoll, hcount, hnew, hstays⟩ := waking requests
  exact ⟨(hpoll 0 (by decide)).1.2 (.inl hsince), hcount 0 (by decide), hnew 0 1 (by decide),
    hstays 0 [.wait 0, .drop 0] hsince (by decide)⟩

end Speedtest.Serving.Shutdown
