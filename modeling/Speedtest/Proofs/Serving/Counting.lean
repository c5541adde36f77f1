import Mathlib.Data.Set.Card
import Mathlib.Logic.Relation
import Speedtest.Serving.Tracker

/-!
# Who is counted

Trackers are made, handles are cloned, connections are taken in through any handle and guards are dropped, in any order.
What took place is written down as a log, and the log alone says which handles belong together, as clones of one another,
and which guards are there. A handle tells exactly the number of guards that are there and were given out through it or
its clones, so a guard that is dropped is always one that is counted. The program counts in words that wrap around; none
of them ever does as long as fewer connections are taken in than there are words, and the numbers of the guards go up.
-/
namespace Speedtest.Serving

/-! ## Counting in words -/

/-- The counts of all trackers, the number that the next guard gets and the numbers that were given out, in words. -/
structure Words where
  nextId : UInt64
  active : List UInt64
  given : List UInt64
  deriving DecidableEq

namespace Words

/-- No tracker, before the first guard of all. -/
def start : Words := ⟨1, [], []⟩

def activeCount (w : Words) (tracker : Nat) : UInt64 := (w.active[tracker]?).getD 0

def create (w : Words) : Words := { w with active := w.active ++ [0] }

/-- Takes a connection in. Both additions wrap around. -/
def track (w : Words) (tracker : Nat) : Words :=
  ⟨w.nextId + 1, w.active.modify tracker (· + 1), w.given ++ [w.nextId]⟩

/-- Drops a guard. The subtraction wraps around. -/
def drop (w : Words) (tracker : Nat) : Words := { w with active := w.active.modify tracker (· - 1) }

end Words

theorem getD_modify {α : Type} (f : α → α) {l : List α} {i : Nat} (hi : i < l.length) (j : Nat) (d : α) :
    ((l.modify i f)[j]?).getD d = if i = j then f ((l[j]?).getD d) else (l[j]?).getD d := by
  rw [List.getElem?_modify]
  split
  case isTrue hij =>
    subst hij
    rw [List.getElem?_eq_getElem hi]
    rfl
  case isFalse => cases l[j]? <;> rfl

theorem getD_concat {α : Type} (l : List α) (j : Nat) (d : α) : ((l ++ [d])[j]?).getD d = (l[j]?).getD d := by
  rw [List.getElem?_append]
  split
  case isTrue => rfl
  case isFalse hj =>
    rw [List.getElem?_eq_none (not_lt.1 hj)]
    cases j - l.length <;> rfl

theorem getElem?_concat_eq_some_iff {α : Type} {l : List α} {a b : α} {i : Nat} :
    (l ++ [a])[i]? = some b ↔ l[i]? = some b ∨ i = l.length ∧ a = b := by
  rw [List.getElem?_append]
  split
  case isTrue hi => simp [hi.ne]
  case isFalse hi =>
    have hnone : l[i]? = none := List.getElem?_eq_none (not_lt.1 hi)
    have hlast : i - l.length = 0 ↔ i = l.length := by omega
    simp [hnone, List.getElem?_singleton, hlast]

namespace Trackers

variable {t : Trackers} {tracker : Nat} {g : Guard}

theorem activeCount_create (t : Trackers) (i : Nat) : t.create.activeCount i = t.activeCount i :=
  getD_concat t.active i 0

theorem activeCount_track (h : tracker < t.active.length) (i : Nat) :
    (t.track tracker).2.activeCount i = t.activeCount i + if tracker = i then 1 else 0 := by
  show ((t.active.modify tracker (· + 1))[i]?).getD 0 = _
  rw [getD_modify _ h]
  split <;> rfl

theorem activeCount_drop (h : g.tracker < t.active.length) (i : Nat) :
    (t.drop g).activeCount i = t.activeCount i - if g.tracker = i then 1 else 0 := by
  show ((t.active.modify g.tracker (· - 1))[i]?).getD 0 = _
  rw [getD_modify _ h]
  split <;> rfl

/-- Words that stand for the counts and numbers of trackers. -/
structure InWords (t : Trackers) (w : Words) : Prop where
  length : w.active.length = t.active.length
  active : ∀ i, w.activeCount i = .ofNat (t.activeCount i)
  nextId : w.nextId = .ofNat t.nextId

theorem inWords_start : InWords (.ofCount 0) .start := ⟨rfl, fun _ => rfl, rfl⟩

namespace InWords

variable {w : Words}

theorem create (h : t.InWords w) : t.create.InWords w.create := by
  constructor
  case length =>
    show (w.active ++ [0]).length = (t.active ++ [0]).length
    rw [List.length_append, List.length_append, h.length]
    rfl
  case active =>
    intro i
    rw [activeCount_create, ← h.active]
    exact getD_concat w.active i 0
  case nextId => exact h.nextId

theorem track (h : t.InWords w) (htracker : tracker < t.active.length) :
    (t.track tracker).2.InWords (w.track tracker) := by
  constructor
  case length =>
    show (w.active.modify tracker _).length = (t.active.modify tracker _).length
    rw [List.length_modify, List.length_modify, h.length]
  case active =>
    intro i
    have hword : (w.track tracker).activeCount i = if tracker = i then w.activeCount i + 1 else w.activeCount i :=
      getD_modify _ (h.length ▸ htracker) i 0
    rw [hword, activeCount_track htracker, h.active]
    split
    case isTrue => rw [UInt64.ofNat_add]; rfl
    case isFalse => rw [Nat.add_zero]
  case nextId =>
    show w.nextId + 1 = .ofNat (t.nextId + 1)
    rw [h.nextId, UInt64.ofNat_add]
    rfl

/-- Where a guard is counted, taking it off the count does not wrap around. -/
theorem drop (h : t.InWords w) (htracker : g.tracker < t.active.length) (hcounted : 0 < t.activeCount g.tracker) :
    (t.drop g).InWords (w.drop g.tracker) := by
  constructor
  case length =>
    show (w.active.modify g.tracker _).length = (t.active.modify g.tracker _).length
    rw [List.length_modify, List.length_modify, h.length]
  case active =>
    intro i
    have hword : (w.drop g.tracker).activeCount i = if g.tracker = i then w.activeCount i - 1 else w.activeCount i :=
      getD_modify _ (h.length ▸ htracker) i 0
    rw [hword, activeCount_drop htracker, h.active]
    split
    case isTrue hi =>
      subst hi
      rw [UInt64.ofNat_sub hcounted]
      rfl
    case isFalse => rw [Nat.sub_zero]
  case nextId => exact h.nextId

end InWords
end Trackers

namespace Handles

/-! ## Logs -/

/-- What is done with trackers, by the number of a handle or of a guard. -/
inductive Request where
  | create
  | clone (h : Nat)
  | track (h : Nat)
  | drop (id : Nat)

/-- What took place. -/
inductive Event where
  | created (h : Nat)
  | cloned (h copy : Nat)
  | tracked (h : Nat) (g : Guard)
  | dropped (g : Guard)
  deriving DecidableEq

def after (s : Handles) : Request → Handles
  | .create => s.create.2
  | .clone h => (s.clone h).2
  | .track h => (s.track h).2
  | .drop id => (s.drop id).2

/-- What takes place on a request, as its answer tells. -/
def events (s : Handles) : Request → List Event
  | .create => [.created s.create.1]
  | .clone h => ((s.clone h).1.map (Event.cloned h)).toList
  | .track h => ((s.track h).1.map (Event.tracked h)).toList
  | .drop id => ((s.drop id).1.map Event.dropped).toList

/-- The trackers after some requests, and all that took place. -/
def run (requests : List Request) : Handles × List Event :=
  requests.foldl (fun (s, log) r => (s.after r, log ++ s.events r)) (start, [])

def Event.count (w : Words) : Event → Words
  | .created _ => w.create
  | .cloned _ _ => w
  | .tracked _ g => w.track g.tracker
  | .dropped g => w.drop g.tracker

def wordsOf (log : List Event) : Words := log.foldl Event.count .start

variable {s : Handles} {log : List Event} {h h' tracker : Nat} {g : Guard}

/-- A handle was made. -/
def Made (log : List Event) (h : Nat) : Prop := .created h ∈ log ∨ ∃ original, .cloned original h ∈ log

/-- Two handles are the same, or clones of one another over any number of steps. -/
def Kin (log : List Event) : Nat → Nat → Prop := Relation.EqvGen fun original copy => .cloned original copy ∈ log

/-- A guard was given out and not dropped. -/
def There (log : List Event) (g : Guard) : Prop := (∃ h, .tracked h g ∈ log) ∧ .dropped g ∉ log

/-- The guards that are there and were given out through a handle or its clones. -/
def guardsThrough (log : List Event) (h : Nat) : Set Guard :=
  {g | (∃ through, Kin log h through ∧ .tracked through g ∈ log) ∧ .dropped g ∉ log}

/-- All guards in the order in which they were given out. -/
def guardsOf (log : List Event) : List Guard :=
  log.filterMap fun
    | .tracked _ g => some g
    | _ => none

theorem Kin.append (hkin : Kin log h h') (more : List Event) : Kin (log ++ more) h h' :=
  Relation.EqvGen.mono (fun _ _ hcloned => List.mem_append_left more hcloned) _ _ hkin

/-! ## Handles and their trackers -/

/-- Handles are on one tracker exactly when they are kin. -/
structure Related (s : Handles) (log : List Event) : Prop where
  made : ∀ h, h < s.trackers.length ↔ Made log h
  owned : ∀ h tracker : Nat, s.trackers[h]? = some tracker → tracker < s.tracked.trackers.active.length
  same : ∀ h copy, .cloned h copy ∈ log → s.trackers[h]? = s.trackers[copy]?
  kin : ∀ h h' tracker : Nat, s.trackers[h]? = some tracker → s.trackers[h']? = some tracker → Kin log h h'

theorem related_start : Related start [] := by
  constructor <;> simp [start, Made]

namespace Related

theorem getElem?_eq_of_kin (hs : Related s log) (hkin : Kin log h h') : s.trackers[h]? = s.trackers[h']? := by
  induction hkin with
  | rel _ _ hcloned => exact hs.same _ _ hcloned
  | refl => rfl
  | symm _ _ _ ih => exact ih.symm
  | trans _ _ _ _ _ ih ih' => exact ih.trans ih'

theorem kin_iff (hs : Related s log) (hh : s.trackers[h]? = some tracker) :
    Kin log h h' ↔ s.trackers[h']? = some tracker := by
  constructor
  · intro hkin
    rw [← hs.getElem?_eq_of_kin hkin, hh]
  · exact hs.kin h h' tracker hh

theorem made_iff (hs : Related s log) : Made log h ↔ ∃ tracker, s.trackers[h]? = some tracker := by
  rw [← hs.made, ← Option.isSome_iff_exists, isSome_getElem?]

/-- An event that makes no handle and adds no tracker. -/
theorem other (hs : Related s log) {e : Event} (hcreated : ∀ h, e ≠ .created h) (hcloned : ∀ h copy, e ≠ .cloned h copy)
    {tracked : Tracked} (hactive : tracked.trackers.active.length = s.tracked.trackers.active.length) :
    Related { s with tracked } (log ++ [e]) := by
  have hmem (h copy : Nat) : .cloned h copy ∈ log ++ [e] ↔ .cloned h copy ∈ log := by
    simp [(hcloned h copy).symm]
  constructor
  case made =>
    intro h
    simp only [Made, hmem, List.mem_append, List.mem_singleton, (hcreated h).symm, or_false]
    exact hs.made h
  case owned =>
    intro h tracker hh
    rw [hactive]
    exact hs.owned h tracker hh
  case same => exact fun h copy hevent => hs.same h copy ((hmem h copy).1 hevent)
  case kin => exact fun h h' tracker hh hh' => (hs.kin h h' tracker hh hh').append [e]

/-- A new handle gets the next number, and is kin to the handles that are on its tracker already. -/
theorem concat (hs : Related s log) {e : Event} {tracked : Tracked}
    (hactive : s.tracked.trackers.active.length ≤ tracked.trackers.active.length)
    (hnew : tracker < tracked.trackers.active.length)
    (hmade : ∀ h, Made (log ++ [e]) h ↔ Made log h ∨ h = s.trackers.length)
    (hcloned : ∀ h copy, .cloned h copy ∈ log ++ [e] →
      .cloned h copy ∈ log ∨ copy = s.trackers.length ∧ s.trackers[h]? = some tracker)
    (hkin : ∀ h, s.trackers[h]? = some tracker → Kin (log ++ [e]) h s.trackers.length) :
    Related ⟨tracked, s.trackers ++ [tracker]⟩ (log ++ [e]) := by
  have hlast : (s.trackers ++ [tracker])[s.trackers.length]? = some tracker := List.getElem?_concat_length
  constructor
  case made =>
    intro h
    rw [hmade, ← hs.made, List.length_append, List.length_singleton]
    omega
  case owned =>
    intro h found hh
    rcases getElem?_concat_eq_some_iff.1 hh with hh | ⟨-, rfl⟩
    · exact (hs.owned h found hh).trans_le hactive
    · exact hnew
  case same =>
    intro h copy hevent
    rcases hcloned h copy hevent with hold | ⟨rfl, hh⟩
    · have hcopy : copy < s.trackers.length := (hs.made copy).2 (.inr ⟨h, hold⟩)
      have hsame := hs.same h copy hold
      have hlt : h < s.trackers.length := by
        rw [List.getElem?_eq_getElem hcopy] at hsame
        exact (List.getElem?_eq_some_iff.1 hsame).1
      rw [List.getElem?_append_left hlt, List.getElem?_append_left hcopy, hsame]
    · rw [hlast, List.getElem?_append_left (List.getElem?_eq_some_iff.1 hh).1, hh]
  case kin =>
    intro h h' found hh hh'
    rcases getElem?_concat_eq_some_iff.1 hh with hh | ⟨rfl, rfl⟩ <;>
      rcases getElem?_concat_eq_some_iff.1 hh' with hh' | ⟨rfl, hsame⟩
    · exact (hs.kin h h' found hh hh').append [e]
    · exact hkin h (hsame ▸ hh)
    · exact (hkin h' hh').symm
    · exact .refl _

end Related

/-! ## Guards -/

theorem there_concat {e : Event} (htracked : ∀ h g, e ≠ .tracked h g) (hdropped : ∀ g, e ≠ .dropped g) :
    There (log ++ [e]) g ↔ There log g := by
  simp [There, (htracked _ _).symm, (hdropped _).symm]

theorem there_tracked (hfresh : .dropped g ∉ log) {g' : Guard} :
    There (log ++ [.tracked h g]) g' ↔ g' = g ∨ There log g' := by
  by_cases hsame : g' = g
  · subst hsame
    simp [There, hfresh]
  · simp [There, hsame]

theorem there_dropped {g' : Guard} : There (log ++ [.dropped g]) g' ↔ g' ≠ g ∧ There log g' := by
  simp [There, and_comm, and_assoc, eq_comm]

theorem guardsOf_tracked (log : List Event) (h : Nat) (g : Guard) :
    guardsOf (log ++ [.tracked h g]) = guardsOf log ++ [g] := by
  simp [guardsOf]

theorem guardsOf_concat {e : Event} (htracked : ∀ h g, e ≠ .tracked h g) : guardsOf (log ++ [e]) = guardsOf log := by
  cases e with
  | tracked h g => exact absurd rfl (htracked h g)
  | created | cloned | dropped => simp [guardsOf]

/-- The guards that are there are those that the log tells of, and each tracker counts its own. Guards are numbered in
the order in which they were given out. -/
structure Guarded (s : Handles) (log : List Event) : Prop where
  through : ∀ h g, .tracked h g ∈ log → s.trackers[h]? = some g.tracker ∧ g.id < s.tracked.trackers.nextId
  given : ∀ g, .dropped g ∈ log → ∃ h, .tracked h g ∈ log
  live : ∀ g, g ∈ s.tracked.live ↔ There log g
  distinct : s.tracked.live.Nodup
  numbers : (guardsOf log).map Guard.id = List.range' 1 (guardsOf log).length
  next : s.tracked.trackers.nextId = (guardsOf log).length + 1
  counted : ∀ tracker, s.tracked.trackers.activeCount tracker = s.tracked.live.countP (·.tracker = tracker)

theorem guarded_start : Guarded start [] := by
  constructor <;> simp [start, There, guardsOf, Tracked.ofCount, Trackers.ofCount, Trackers.activeCount]

namespace Guarded

/-- An event that neither gives a guard out nor drops one, and keeps the handles that are there. -/
theorem other (hs : Guarded s log) {e : Event} (htracked : ∀ h g, e ≠ .tracked h g) (hdropped : ∀ g, e ≠ .dropped g)
    {trackers : Trackers} (hnext : trackers.nextId = s.tracked.trackers.nextId)
    (hcount : ∀ i, trackers.activeCount i = s.tracked.trackers.activeCount i) :
    Guarded ⟨{ s.tracked with trackers }, s.trackers ++ [tracker]⟩ (log ++ [e]) := by
  constructor
  case through =>
    intro h g hevent
    have hold : .tracked h g ∈ log := by simpa [(htracked h g).symm] using hevent
    obtain ⟨hh, hid⟩ := hs.through h g hold
    rw [hnext]
    exact ⟨getElem?_concat_eq_some_iff.2 (.inl hh), hid⟩
  case given =>
    intro g hevent
    obtain ⟨h, hh⟩ := hs.given g (by simpa [(hdropped g).symm] using hevent)
    exact ⟨h, List.mem_append_left _ hh⟩
  case live => exact fun g => (hs.live g).trans (there_concat htracked hdropped).symm
  case distinct => exact hs.distinct
  case numbers =>
    rw [guardsOf_concat htracked]
    exact hs.numbers
  case next =>
    rw [guardsOf_concat htracked, hnext]
    exact hs.next
  case counted => exact fun i => (hcount i).trans (hs.counted i)

theorem not_dropped (hs : Guarded s log) (hid : s.tracked.trackers.nextId ≤ g.id) : .dropped g ∉ log := by
  intro hdropped
  obtain ⟨h, hh⟩ := hs.given g hdropped
  exact hid.not_gt (hs.through h g hh).2

theorem not_mem_live (hs : Guarded s log) (hid : s.tracked.trackers.nextId ≤ g.id) : g ∉ s.tracked.live := by
  intro hlive
  obtain ⟨⟨h, hh⟩, -⟩ := (hs.live g).1 hlive
  exact hid.not_gt (hs.through h g hh).2

/-- Giving a guard out keeps the invariant: it is new, it is counted and it has the next number. -/
theorem tracked (hs : Guarded s log) (hh : s.trackers[h]? = some tracker)
    (htracker : tracker < s.tracked.trackers.active.length) :
    Guarded { s with tracked := (s.tracked.track tracker).2 } (log ++ [.tracked h (s.tracked.track tracker).1]) := by
  set g := (s.tracked.track tracker).1
  have hlive : (s.tracked.track tracker).2.live = g :: s.tracked.live := rfl
  have hnext : (s.tracked.track tracker).2.trackers.nextId = s.tracked.trackers.nextId + 1 := rfl
  constructor
  case through =>
    intro h' g' hevent
    rw [hnext]
    rcases List.mem_append.1 hevent with hold | hnew
    · obtain ⟨hh', hid⟩ := hs.through h' g' hold
      exact ⟨hh', hid.trans (Nat.lt_succ_self _)⟩
    · obtain ⟨rfl, rfl⟩ : h' = h ∧ g' = g := by simpa using hnew
      exact ⟨hh, Nat.lt_succ_self _⟩
  case given =>
    intro g' hevent
    obtain ⟨h', hh'⟩ := hs.given g' (by simpa using hevent)
    exact ⟨h', List.mem_append_left _ hh'⟩
  case live =>
    intro g'
    rw [there_tracked (hs.not_dropped le_rfl), hlive, List.mem_cons, hs.live]
  case distinct =>
    rw [hlive]
    exact List.nodup_cons.2 ⟨hs.not_mem_live le_rfl, hs.distinct⟩
  case numbers =>
    have hid : g.id = 1 + 1 * (guardsOf log).length := by
      rw [one_mul, add_comm]
      exact hs.next
    rw [guardsOf_tracked, List.map_append, hs.numbers, List.length_append, List.length_singleton, List.range'_concat,
      List.map_singleton, hid]
  case next =>
    rw [guardsOf_tracked, hnext, hs.next, List.length_append, List.length_singleton]
  case counted =>
    intro i
    have htracks : g.tracker = tracker := rfl
    have hcount : (s.tracked.track tracker).2.trackers.activeCount i =
        s.tracked.trackers.activeCount i + if tracker = i then 1 else 0 := Trackers.activeCount_track htracker i
    rw [hcount, hlive, List.countP_cons, htracks, ← hs.counted]
    simp only [decide_eq_true_iff]

/-- Dropping a guard that is there keeps the invariant: it was counted once and is counted no more. -/
theorem dropped (hs : Guarded s log) (hlive : g ∈ s.tracked.live)
    (htracker : g.tracker < s.tracked.trackers.active.length) :
    Guarded { s with tracked := ⟨s.tracked.trackers.drop g, s.tracked.live.erase g⟩ } (log ++ [.dropped g]) := by
  have hguards : guardsOf (log ++ [.dropped g]) = guardsOf log := guardsOf_concat fun _ _ => Event.noConfusion
  constructor
  case through => exact fun h' g' hevent => hs.through h' g' (by simpa using hevent)
  case given =>
    intro g' hevent
    rcases List.mem_append.1 hevent with hold | hnew
    · obtain ⟨h', hh'⟩ := hs.given g' hold
      exact ⟨h', List.mem_append_left _ hh'⟩
    · obtain rfl : g' = g := by simpa using hnew
      obtain ⟨h', hh'⟩ := ((hs.live g').1 hlive).1
      exact ⟨h', List.mem_append_left _ hh'⟩
  case live =>
    intro g'
    rw [there_dropped, hs.distinct.mem_erase_iff, hs.live]
  case distinct => exact hs.distinct.erase g
  case numbers =>
    rw [hguards]
    exact hs.numbers
  case next =>
    rw [hguards]
    exact hs.next
  case counted =>
    intro i
    show (s.tracked.trackers.drop g).activeCount i = _
    rw [Trackers.activeCount_drop htracker, List.countP_erase, hs.counted]
    simp [hlive]

/-- A tracker that counts no guard any more is never asked to count one less. -/
theorem counts_live (hs : Guarded s log) (hlive : g ∈ s.tracked.live) :
    0 < s.tracked.trackers.activeCount g.tracker := by
  rw [hs.counted, List.countP_pos_iff]
  exact ⟨g, hlive, decide_eq_true rfl⟩

theorem live_length_le (hs : Guarded s log) : s.tracked.live.length ≤ (guardsOf log).length := by
  refine (hs.distinct.subperm fun g hg => ?_).length_le
  obtain ⟨⟨h, hh⟩, -⟩ := (hs.live g).1 hg
  exact List.mem_filterMap.2 ⟨_, hh, rfl⟩

end Guarded

/-! ## Steps -/

/-- All that a log tells about the trackers. -/
structure Follows (s : Handles) (log : List Event) : Prop where
  related : Related s log
  guarded : Guarded s log
  inWords : s.tracked.trackers.InWords (wordsOf log)
  given : (wordsOf log).given = (guardsOf log).map (.ofNat ·.id)

theorem wordsOf_concat (log : List Event) (e : Event) : wordsOf (log ++ [e]) = e.count (wordsOf log) := by
  rw [wordsOf, List.foldl_append]
  rfl

theorem follows_start : Follows start [] :=
  ⟨related_start, guarded_start, Trackers.inWords_start, rfl⟩

namespace Follows

theorem create (hs : Follows s log) : Follows s.create.2 (log ++ [.created s.create.1]) := by
  have hlength : s.create.2.tracked.trackers.active.length = s.tracked.trackers.active.length + 1 :=
    List.length_append
  -- no handle was on the tracker that is new
  have hnone (h : Nat) : s.trackers[h]? ≠ some s.tracked.trackers.active.length :=
    fun hh => (hs.related.owned h _ hh).ne rfl
  constructor
  case related =>
    refine hs.related.concat (hlength.symm ▸ Nat.le_succ _) (hlength.symm ▸ Nat.lt_succ_self _) (fun h => ?_)
      (fun h copy hevent => .inl ?_) ?_
    · simp [Made, Handles.create, or_right_comm]
    · simpa using hevent
    · exact fun h hh => absurd hh (hnone h)
  case guarded =>
    refine hs.guarded.other (fun _ _ => Event.noConfusion) (fun _ => Event.noConfusion) rfl fun i => ?_
    exact Trackers.activeCount_create s.tracked.trackers i
  case inWords =>
    rw [wordsOf_concat]
    exact hs.inWords.create
  case given =>
    rw [wordsOf_concat, guardsOf_concat (by simp)]
    exact hs.given

/-- A clone is kin to all that its original is kin to. -/
theorem clone (hs : Follows s log) (hh : s.trackers[h]? = some tracker) :
    Follows { s with trackers := s.trackers ++ [tracker] } (log ++ [.cloned h s.trackers.length]) := by
  constructor
  case related =>
    refine hs.related.concat le_rfl (hs.related.owned h tracker hh) (fun h' => ?_) (fun h' copy hevent => ?_) ?_
    · simp [Made, exists_or, or_assoc]
    · rcases List.mem_append.1 hevent with hold | hnew
      · exact .inl hold
      · obtain ⟨rfl, rfl⟩ : h' = h ∧ copy = s.trackers.length := by simpa using hnew
        exact .inr ⟨rfl, hh⟩
    · intro h' hh'
      have hcloned : Kin (log ++ [.cloned h s.trackers.length]) h s.trackers.length :=
        .rel _ _ (List.mem_concat_self)
      exact ((hs.related.kin h' h tracker hh' hh).append _).trans _ _ _ hcloned
  case guarded =>
    exact hs.guarded.other (fun _ _ => Event.noConfusion) (fun _ => Event.noConfusion) rfl fun _ => rfl
  case inWords =>
    rw [wordsOf_concat]
    exact hs.inWords
  case given =>
    rw [wordsOf_concat, guardsOf_concat (by simp)]
    exact hs.given

theorem track (hs : Follows s log) (hh : s.trackers[h]? = some tracker) :
    Follows { s with tracked := (s.tracked.track tracker).2 } (log ++ [.tracked h (s.tracked.track tracker).1]) := by
  have htracker := hs.related.owned h tracker hh
  constructor
  case related =>
    refine hs.related.other (fun _ => Event.noConfusion) (fun _ _ => Event.noConfusion) ?_
    exact List.length_modify ..
  case guarded => exact hs.guarded.tracked hh htracker
  case inWords =>
    rw [wordsOf_concat]
    exact hs.inWords.track htracker
  case given =>
    have hnext : (wordsOf log).nextId = .ofNat s.tracked.trackers.nextId := hs.inWords.nextId
    rw [wordsOf_concat, guardsOf_tracked, List.map_append, ← hs.given]
    exact congrArg (fun id => (wordsOf log).given ++ [id]) hnext

theorem drop (hs : Follows s log) (hlive : g ∈ s.tracked.live) :
    Follows { s with tracked := ⟨s.tracked.trackers.drop g, s.tracked.live.erase g⟩ } (log ++ [.dropped g]) := by
  obtain ⟨⟨h, hh⟩, -⟩ := (hs.guarded.live g).1 hlive
  have htracker := hs.related.owned h g.tracker (hs.guarded.through h g hh).1
  constructor
  case related =>
    refine hs.related.other (fun _ => Event.noConfusion) (fun _ _ => Event.noConfusion) ?_
    exact List.length_modify ..
  case guarded => exact hs.guarded.dropped hlive htracker
  case inWords =>
    rw [wordsOf_concat]
    exact hs.inWords.drop htracker (hs.guarded.counts_live hlive)
  case given =>
    rw [wordsOf_concat, guardsOf_concat (by simp)]
    exact hs.given

/-- What one request does is what its events tell. -/
theorem after (hs : Follows s log) (r : Request) : Follows (s.after r) (log ++ s.events r) := by
  cases r with
  | create => exact hs.create
  | clone h =>
    cases hh : s.trackers[h]? with
    | some tracker => simpa [Handles.after, events, Handles.clone, hh] using hs.clone hh
    | none => simpa [Handles.after, events, Handles.clone, hh] using hs
  | track h =>
    cases hh : s.trackers[h]? with
    | some tracker => simpa [Handles.after, events, Handles.track, hh] using hs.track hh
    | none => simpa [Handles.after, events, Handles.track, hh] using hs
  | drop id =>
    cases hg : s.tracked.guard? id with
    | some g =>
      have hlive : g ∈ s.tracked.live := List.mem_of_find?_eq_some hg
      simpa [Handles.after, events, Handles.drop, Tracked.drop, hg] using hs.drop hlive
    | none => simpa [Handles.after, events, Handles.drop, Tracked.drop, hg] using hs

end Follows

theorem follows_run (requests : List Request) : Follows (run requests).1 (run requests).2 := by
  induction requests using List.reverseRecOn with
  | nil => exact follows_start
  | append_singleton requests r ih =>
    rw [run, List.foldl_append]
    exact ih.after r

/-! ## What is told -/

def wordCount? (s : Handles) (w : Words) (h : Nat) : Option UInt64 := s.trackers[h]?.map w.activeCount

namespace Follows

/-- The guards of a tracker are those that were given out through the handles on it. -/
theorem countP_live (hs : Follows s log) (hh : s.trackers[h]? = some tracker) :
    s.tracked.live.countP (·.tracker = tracker) = (guardsThrough log h).ncard := by
  have hsame : guardsThrough log h = ((s.tracked.live.filter (·.tracker = tracker)).toFinset : Set Guard) := by
    ext g
    rw [List.coe_toFinset, Set.mem_ofPred_eq, List.mem_filter, decide_eq_true_iff, hs.guarded.live]
    constructor
    · rintro ⟨⟨through, hkin, hgiven⟩, hdropped⟩
      have hthrough := (hs.related.kin_iff hh).1 hkin
      rw [(hs.guarded.through through g hgiven).1, Option.some_inj] at hthrough
      exact ⟨⟨⟨through, hgiven⟩, hdropped⟩, hthrough⟩
    · rintro ⟨⟨⟨through, hgiven⟩, hdropped⟩, rfl⟩
      exact ⟨⟨through, (hs.related.kin_iff hh).2 (hs.guarded.through through g hgiven).1, hgiven⟩, hdropped⟩
  rw [hsame, Set.ncard_coe_finset, List.toFinset_card_of_nodup (hs.guarded.distinct.filter _),
    List.countP_eq_length_filter]

theorem activeCount?_eq (hs : Follows s log) (hmade : Made log h) :
    s.activeCount? h = some (guardsThrough log h).ncard := by
  obtain ⟨tracker, hh⟩ := hs.related.made_iff.1 hmade
  rw [activeCount?, hh, Option.map_some, hs.guarded.counted, hs.countP_live hh]

theorem toNat_activeCount (hs : Follows s log) (hfew : (guardsOf log).length < 2 ^ 64) (tracker : Nat) :
    ((wordsOf log).activeCount tracker).toNat = s.tracked.trackers.activeCount tracker := by
  have hlt : s.tracked.trackers.activeCount tracker < 2 ^ 64 := by
    rw [hs.guarded.counted]
    exact (List.countP_le_length.trans hs.guarded.live_length_le).trans_lt hfew
  rw [hs.inWords.active, UInt64.toNat_ofNat', Nat.mod_eq_of_lt hlt]

theorem wordCount?_eq (hs : Follows s log) (hfew : (guardsOf log).length < 2 ^ 64) (h : Nat) :
    (s.wordCount? (wordsOf log) h).map UInt64.toNat = s.activeCount? h := by
  rw [wordCount?, activeCount?, Option.map_map]
  congr 1
  exact funext (hs.toNat_activeCount hfew)

theorem given_increasing (hs : Follows s log) (hfew : (guardsOf log).length < 2 ^ 64) :
    (wordsOf log).given.Pairwise (· < ·) := by
  have hids : (wordsOf log).given = (List.range' 1 (guardsOf log).length).map UInt64.ofNat := by
    rw [hs.given, ← hs.guarded.numbers, List.map_map]
    rfl
  rw [hids, List.pairwise_map]
  refine List.Pairwise.imp_of_mem (fun {a b} ha hb hlt => ?_) (List.pairwise_lt_range' 1 Nat.one_pos)
  rw [List.mem_range'_1] at ha hb
  rw [UInt64.lt_iff_toNat_lt, UInt64.toNat_ofNat', UInt64.toNat_ofNat', Nat.mod_eq_of_lt (by omega),
    Nat.mod_eq_of_lt (by omega)]
  exact hlt

/-- The guards that were given out are told apart by their numbers. -/
theorem eq_of_id_eq (hs : Follows s log) {g g' : Guard} (hg : There log g) (hg' : There log g') (hid : g.id = g'.id) :
    g = g' := by
  have hmem {g : Guard} (hg : There log g) : g ∈ guardsOf log := by
    obtain ⟨⟨h, hh⟩, -⟩ := hg
    exact List.mem_filterMap.2 ⟨_, hh, rfl⟩
  have hnodup : ((guardsOf log).map Guard.id).Nodup := hs.guarded.numbers ▸ List.nodup_range'
  exact List.inj_on_of_nodup_map hnodup (hmem hg) (hmem hg') hid

theorem guard?_eq_some_iff (hs : Follows s log) {id : Nat} :
    s.tracked.guard? id = some g ↔ There log g ∧ g.id = id := by
  have hfound {g : Guard} (hg : s.tracked.guard? id = some g) : There log g ∧ g.id = id :=
    ⟨(hs.guarded.live g).1 (List.mem_of_find?_eq_some hg), by simpa using List.find?_some hg⟩
  constructor
  · exact hfound
  · rintro ⟨hthere, rfl⟩
    have hsome : (s.tracked.guard? g.id).isSome :=
      List.find?_isSome.2 ⟨g, (hs.guarded.live g).2 hthere, beq_self_eq_true _⟩
    obtain ⟨g', hg'⟩ := Option.isSome_iff_exists.1 hsome
    obtain ⟨hthere', hid⟩ := hfound hg'
    rw [hg', hs.eq_of_id_eq hthere' hthere hid]

end Follows

/-- What is asked for takes place: a handle gives out a guard as soon as it was made, and dropping by a number drops the
one guard with that number that is there, if any, and nothing else. -/
theorem takes_place (requests : List Request) :
    let s := (run requests).1
    let log := (run requests).2
    (∀ h, Made log h → ∃ g, s.events (.track h) = [.tracked h g]) ∧
    (∀ g id, .dropped g ∈ s.events (.drop id) ↔ There log g ∧ g.id = id) := by
  intro s log
  have hs : Follows s log := follows_run requests
  refine ⟨fun h hmade => ?_, fun g id => ?_⟩
  · obtain ⟨tracker, hh⟩ := hs.related.made_iff.1 hmade
    exact ⟨(s.tracked.track tracker).1, by simp [events, Handles.track, hh]⟩
  · rw [← hs.guard?_eq_some_iff]
    simp [events, Handles.drop]

/-- Whatever was done, every handle tells the number of guards that are there and were given out through it or its
clones, in words as well as without bound. A guard that is there is counted, so that taking it off never goes below
nothing, and the numbers that the guards got, as words, go up. -/
theorem counts_own (requests : List Request) (hfew : (guardsOf (run requests).2).length < 2 ^ 64) :
    let s := (run requests).1
    let log := (run requests).2
    (∀ h, Made log h → s.activeCount? h = some (guardsThrough log h).ncard ∧
      (s.wordCount? (wordsOf log) h).map UInt64.toNat = some (guardsThrough log h).ncard) ∧
    (∀ g, There log g → 0 < (wordsOf log).activeCount g.tracker) ∧
    (wordsOf log).given = (guardsOf log).map (.ofNat ·.id) ∧
    (wordsOf log).given.Pairwise (· < ·) := by
  intro s log
  have hs : Follows s log := follows_run requests
  refine ⟨fun h hmade => ?_, fun g hthere => ?_, hs.given, hs.given_increasing hfew⟩
  · rw [hs.wordCount?_eq hfew]
    exact ⟨hs.activeCount?_eq hmade, hs.activeCount?_eq hmade⟩
  · have hcounted := hs.guarded.counts_live ((hs.guarded.live g).2 hthere)
    rw [UInt64.lt_iff_toNat_lt, hs.toNat_activeCount hfew]
    exact hcounted

/-- Two trackers, of which the first has a clone: a guard from each of the three handles, and the first is dropped. -/
theorem counts_own_two :
    let requests : List Request := [.create, .create, .clone 0, .track 0, .track 1, .track 2, .drop 1]
    let log := (run requests).2
    (guardsOf log).length < 2 ^ 64 ∧ (guardsThrough log 0).ncard = 1 ∧ (guardsThrough log 1).ncard = 1 ∧
      (wordsOf log).active = [1, 1] ∧ (wordsOf log).given = [1, 2, 3] := by
  intro requests log
  have hfew : (guardsOf log).length < 2 ^ 64 := by decide
  obtain ⟨hcount, -⟩ := counts_own requests hfew
  have hfirst : some 1 = some (guardsThrough log 0).ncard := (hcount 0 (.inl (by decide))).1
  have hsecond : some 1 = some (guardsThrough log 1).ncard := (hcount 1 (.inl (by decide))).1
  exact ⟨hfew, (Option.some.inj hfirst).symm, (Option.some.inj hsecond).symm, by decide, by decide⟩

end Handles
end Speedtest.Serving
