import Mathlib.Data.Finset.Card
import Mathlib.Data.List.Induction
import Mathlib.Order.Interval.Finset.Nat
import Speedtest.Serving.Run

/-!
# The course of a run

Whatever happens to a server, and in whatever order, it comes through its phases one after another. One lemma says
what a step can do. From it follow two invariants of a run with the events that made it: one of the phases and the
failure, and one of the tasks and the tracker that counts them. The rest is read off these.
-/
namespace Speedtest.Serving

namespace Phase

/-- All phases, in the order in which a server comes to them. -/
def all : List Phase := [.starting, .serving, .draining, .stopped]

def upTo : Phase → List Phase
  | .starting => [.starting]
  | .serving => [.starting, .serving]
  | .draining => [.starting, .serving, .draining]
  | .stopped => all

theorem upTo_prefix (p : Phase) : p.upTo <+: all := by
  cases p <;> decide

theorem getLast?_upTo (p : Phase) : p.upTo.getLast? = some p := by
  cases p <;> rfl

theorem serving_mem_upTo {p : Phase} : .serving ∈ p.upTo ↔ p ≠ .starting := by
  cases p <;> decide

theorem draining_mem_upTo {p : Phase} : .draining ∈ p.upTo ↔ p = .draining ∨ p = .stopped := by
  cases p <;> decide

theorem stopped_mem_upTo {p : Phase} : .stopped ∈ p.upTo ↔ p = .stopped := by
  cases p <;> decide

end Phase

/-- A connection could not be accepted for a reason that was laid neither to the connection nor to resources. -/
structure GaveUp (events : List Event) (error : AcceptError) : Prop where
  happened : .refused error ∈ events
  notOfConnection : error.isOfConnection = false
  notOfResources : error.isOfResources = false

/-- The course of a run that events have made. -/
structure Orderly (events : List Event) (r : Run) : Prop where
  ordered : r.published <+: Phase.all
  latest : r.published.getLast? = some r.phase
  /-- Connections are taken in while the server serves and at no other time. -/
  accepting : ∀ before rest, events = before ++ .accepted :: rest →
    ∃ r', Run.start.steps before = some r' ∧ r'.published = [.starting, .serving]
  draining : .draining ∈ r.published ↔ .shutdown ∈ events ∨ ∃ error, GaveUp events error
  /-- The task of a connection is there until it finishes or is aborted. -/
  tasks : ∀ c, r.hasTask c = true ↔
    (1 ≤ c ∧ c ≤ events.count .accepted) ∧ .finished c ∉ events ∧ .graceElapsed ∉ events
  counted : r.openCount = ((Finset.Icc 1 (events.count .accepted)).filter fun c => r.hasTask c = true).card
  stopped : .stopped ∈ r.published → r.openCount = 0 ∧ ∀ c, 1 ≤ c → c ≤ events.count .accepted →
    r.hasTask c = false ∧ (.finished c ∈ events ∨ .graceElapsed ∈ events)
  /-- No task can keep a server that drains from stopping. -/
  ending : r.phase = .draining → ∃ r', r.step .graceElapsed = some r' ∧ r'.phase = .stopped
  failed : .serving ∈ r.published → ∀ e, r.returned? = some (.error e) ↔
    .stopped ∈ r.published ∧ ∃ error, GaveUp events error ∧ e = .accept error.reason
  succeeded : .serving ∈ r.published →
    (r.returned? = some (.ok ()) ↔ .stopped ∈ r.published ∧ ¬ ∃ error, GaveUp events error)

/-! ## Guards -/

namespace Tracked

/-- The one tracker of a run counts the guards that are there. Their numbers are different, and are among those that
were given out. -/
structure Counts (t : Tracked) (given : Nat) : Prop where
  active : t.trackers.active = [t.live.length]
  next : t.trackers.nextId = given + 1
  own : ∀ g ∈ t.live, g.tracker = 0
  distinct : (t.live.map (·.id)).Nodup
  given : ∀ g ∈ t.live, 1 ≤ g.id ∧ g.id ≤ given

theorem counts_start : Counts (.ofCount 1) 0 :=
  ⟨rfl, rfl, fun _ h => (nomatch h), List.nodup_nil, fun _ h => (nomatch h)⟩

theorem guard?_isSome {t : Tracked} {c : Nat} : (t.guard? c).isSome = true ↔ ∃ g ∈ t.live, g.id = c := by
  rw [guard?, List.find?_isSome]
  simp

theorem guard?_eq_some {t : Tracked} {c : Nat} {g : Guard} (h : t.guard? c = some g) : g ∈ t.live ∧ g.id = c :=
  ⟨List.mem_of_find?_eq_some h, by simpa using List.find?_some h⟩

variable {t : Tracked} {given : Nat}

theorem Counts.live_track (h : Counts t given) : (t.track 0).2.live = ⟨given + 1, 0⟩ :: t.live := by
  rw [← h.next]
  rfl

/-- Taking a connection in counts one more. -/
theorem Counts.track (h : Counts t given) : Counts (t.track 0).2 (given + 1) := by
  constructor
  case active =>
    show t.trackers.active.modify 0 (· + 1) = [(t.track 0).2.live.length]
    rw [h.active, h.live_track]
    rfl
  case next =>
    show t.trackers.nextId + 1 = _
    rw [h.next]
  case own =>
    intro g hg
    rw [h.live_track] at hg
    rcases List.mem_cons.1 hg with rfl | hg
    · rfl
    · exact h.own g hg
  case distinct =>
    rw [h.live_track, List.map_cons, List.nodup_cons]
    refine ⟨fun hmem => ?_, h.distinct⟩
    obtain ⟨g, hg, hid⟩ := List.mem_map.1 hmem
    have hle := (h.given g hg).2
    have hnumber : g.id = given + 1 := hid
    omega
  case given =>
    intro g hg
    rw [h.live_track] at hg
    rcases List.mem_cons.1 hg with rfl | hg
    · exact ⟨Nat.le_add_left 1 given, Nat.le_refl _⟩
    · exact ⟨(h.given g hg).1, Nat.le_succ_of_le (h.given g hg).2⟩

/-- Taking a connection in adds the next guard. -/
theorem Counts.mem_track (h : Counts t given) (k : Nat) :
    (∃ g ∈ (t.track 0).2.live, g.id = k) ↔ k = given + 1 ∨ ∃ g ∈ t.live, g.id = k := by
  rw [h.live_track, List.exists_mem_cons_iff]
  exact or_congr_left eq_comm

/-- Dropping a connection counts one less, if it is there. -/
theorem Counts.drop (h : Counts t given) (c : Nat) : Counts (t.drop c).2 given := by
  unfold Tracked.drop
  split
  · rename_i g hguard
    have hg := (guard?_eq_some hguard).1
    constructor
    case active =>
      show t.trackers.active.modify g.tracker (· - 1) = [(t.live.erase g).length]
      rw [h.active, h.own g hg, List.length_erase_of_mem hg]
      rfl
    case next => exact h.next
    case own => exact fun g' hg' => h.own g' (List.mem_of_mem_erase hg')
    case distinct => exact h.distinct.sublist (List.erase_sublist.map _)
    case given => exact fun g' hg' => h.given g' (List.mem_of_mem_erase hg')
  · exact h

/-- Dropping a guard leaves all others. -/
theorem Counts.mem_drop (h : Counts t given) (c k : Nat) :
    (∃ g ∈ (t.drop c).2.live, g.id = k) ↔ k ≠ c ∧ ∃ g ∈ t.live, g.id = k := by
  unfold Tracked.drop
  split
  · rename_i g hguard
    obtain ⟨hg, rfl⟩ := guard?_eq_some hguard
    have hnodup : t.live.Nodup := h.distinct.of_map
    have hsame : ∀ g' ∈ t.live, g'.id = g.id → g' = g := fun g' hg' => List.inj_on_of_nodup_map h.distinct hg' hg
    constructor
    · rintro ⟨g', hg', rfl⟩
      obtain ⟨hne, hg'⟩ := hnodup.mem_erase_iff.1 hg'
      exact ⟨fun hid => hne (hsame g' hg' hid), g', hg', rfl⟩
    · rintro ⟨hne, g', hg', rfl⟩
      exact ⟨g', hnodup.mem_erase_iff.2 ⟨fun hgg => hne (congrArg Guard.id hgg), hg'⟩, rfl⟩
  · rename_i hguard
    refine ⟨fun ⟨g, hg, hid⟩ => ⟨?_, g, hg, hid⟩, fun ⟨_, hg⟩ => hg⟩
    rintro rfl
    have hsome := guard?_isSome.2 ⟨g, hg, hid⟩
    rw [hguard] at hsome
    exact nomatch hsome

end Tracked

/-! ## What a step can do -/

namespace Run

/-- Everything that can happen to a run. -/
inductive Moves (r : Run) : Event → Run → Prop where
  | begin (phase : r.phase = .starting) (placed : r.failure = none) : Moves r .begin (r.publish .serving)
  | unplaced {reason : String} (phase : r.phase = .starting) (placed : r.failure = none) :
      Moves r (.unplaced reason) { r with failure := some (.listener reason) }
  | accepted (phase : r.phase = .serving) : Moves r .accepted r.takeIn
  | passed {error : AcceptError} (resting : Bool) (phase : r.phase = .serving) (fault : error.fault ≠ .socket) :
      Moves r (.refused error) { r with resting }
  | gaveUp {error : AcceptError} (phase : r.phase = .serving) (fault : error.fault = .socket) :
      Moves r (.refused error) (r.drain (some (.accept error.reason)))
  | shutdown (phase : r.phase = .serving) : Moves r .shutdown (r.drain none)
  | rested (phase : r.phase = .serving) : Moves r .rested { r with resting := false }
  | finished {c : Nat} (phase : r.phase = .serving ∨ r.phase = .draining) (there : r.hasTask c = true) :
      Moves r (.finished c) (r.without c).settle
  | graceElapsed (phase : r.phase = .draining) : Moves r .graceElapsed r.aborted.settle

theorem settle_of_phase_ne {r : Run} (h : r.phase ≠ .draining) : r.settle = r := if_neg fun hr => h hr.1

/-- Every step is one of the moves. -/
theorem moves_of_step {r r' : Run} {e : Event} (h : r.step e = some r') : Moves r e r' := by
  unfold step at h
  split at h
  · rename_i hphase
    split at h
    · rename_i hplaced
      obtain rfl := Option.some.inj h
      exact .begin hphase (Option.isNone_iff_eq_none.1 hplaced)
    · exact nomatch h
  · rename_i hphase
    split at h
    · rename_i hplaced
      obtain rfl := Option.some.inj h
      exact .unplaced hphase (Option.isNone_iff_eq_none.1 hplaced)
    · exact nomatch h
  · rename_i hphase
    split at h
    · exact nomatch h
    · obtain rfl := Option.some.inj h
      exact .accepted hphase
  · rename_i error hphase
    split at h
    · exact nomatch h
    · obtain rfl := Option.some.inj h
      unfold refuse
      split
      · rename_i hfault
        exact .passed r.resting hphase (by rw [hfault]; decide)
      · rename_i hfault
        exact .passed true hphase (by rw [hfault]; decide)
      · rename_i hfault
        exact .gaveUp hphase hfault
  · rename_i hphase
    split at h
    · exact nomatch h
    · obtain rfl := Option.some.inj h
      exact .shutdown hphase
  · rename_i hphase
    split at h
    · obtain rfl := Option.some.inj h
      exact .rested hphase
    · exact nomatch h
  · rename_i c hphase
    split at h
    · rename_i hthere
      obtain rfl := Option.some.inj h
      have hsettled : (r.without c).settle = r.without c :=
        settle_of_phase_ne (r := r.without c) (by rw [without, hphase]; decide)
      exact hsettled ▸ .finished (.inl hphase) hthere
    · exact nomatch h
  · rename_i c hphase
    split at h
    · rename_i hthere
      obtain rfl := Option.some.inj h
      exact .finished (.inr hphase) hthere
    · exact nomatch h
  · rename_i hphase
    obtain rfl := Option.some.inj h
    exact .graceElapsed hphase
  · exact nomatch h

theorem settle_cases (r : Run) :
    (r.phase = .draining ∧ r.tracked.live = [] ∧ r.settle = r.publish .stopped) ∨
    (¬ (r.phase = .draining ∧ r.tracked.live = []) ∧ r.settle = r) := by
  by_cases h : r.phase = .draining ∧ r.tracked.live = []
  · exact .inl ⟨h.1, h.2, if_pos h⟩
  · exact .inr ⟨h, if_neg h⟩

theorem tracked_settle (r : Run) : r.settle.tracked = r.tracked := by
  unfold settle
  split <;> rfl

theorem failure_settle (r : Run) : r.settle.failure = r.failure := by
  unfold settle
  split <;> rfl

/-- With its tasks aborted a run is as before, but for the guards. -/
theorem exists_aborted (r : Run) :
    ∃ t : Tracked, r.aborted = { r with tracked := t } ∧ t.live = [] ∧
      ∀ given, r.tracked.Counts given → t.Counts given := by
  suffices hfrom : ∀ (guards : List Guard) (r : Run), r.tracked.live = guards →
      ∃ t : Tracked, guards.foldl (fun r g => r.without g.id) r = { r with tracked := t } ∧ t.live = [] ∧
        ∀ given, r.tracked.Counts given → t.Counts given from
    hfrom _ r rfl
  intro guards
  induction guards with
  | nil => exact fun r hlive => ⟨r.tracked, rfl, hlive, fun _ hcounts => hcounts⟩
  | cons g guards ih =>
    intro r hlive
    have hguard : r.tracked.guard? g.id = some g := by simp [Tracked.guard?, hlive]
    have hrest : (r.without g.id).tracked.live = guards := by simp [without, Tracked.drop, hguard, hlive]
    obtain ⟨t, ht, hnone, hcounts⟩ := ih (r.without g.id) hrest
    exact ⟨t, ht, hnone, fun given h => hcounts given (h.drop g.id)⟩

theorem steps_append (r : Run) (before after : List Event) :
    r.steps (before ++ after) = (r.steps before).bind fun r' => r'.steps after := by
  induction before generalizing r with
  | nil => rfl
  | cons e before ih =>
    rw [List.cons_append, steps, steps, Option.bind_assoc]
    exact congrArg _ (funext ih)

theorem steps_concat {r r' : Run} {events : List Event} {e : Event} (h : r.steps (events ++ [e]) = some r') :
    ∃ mid, r.steps events = some mid ∧ mid.step e = some r' := by
  rw [steps_append] at h
  obtain ⟨mid, hmid, hlast⟩ := Option.bind_eq_some_iff.1 h
  obtain ⟨last, hstep, hnil⟩ := Option.bind_eq_some_iff.1 hlast
  obtain rfl := Option.some.inj hnil
  exact ⟨mid, hmid, hstep⟩

end Run

/-! ## Phases -/

/-- A run has published its phases, has left the loop only for a reason, and holds the failure that made it leave. -/
structure InPhase (events : List Event) (r : Run) : Prop where
  published : r.published = r.phase.upTo
  left : (r.phase = .draining ∨ r.phase = .stopped) ↔ .shutdown ∈ events ∨ ∃ error, GaveUp events error
  failed : ∀ reason, r.failure = some (.accept reason) ↔ ∃ error, GaveUp events error ∧ reason = error.reason
  placed : ∀ reason, r.failure = some (.listener reason) → r.phase = .starting

variable {events : List Event} {e : Event} {r r' : Run}

theorem inPhase_start : InPhase [] .start := by
  refine ⟨rfl, ?_, ?_, fun _ h => (nomatch h)⟩
  · exact ⟨fun h => by cases h <;> contradiction, fun h => by
      rcases h with h | ⟨error, h⟩
      · exact nomatch h
      · exact nomatch h.happened⟩
  · exact fun reason => ⟨fun h => (nomatch h), fun ⟨error, h, _⟩ => (nomatch h.happened)⟩

theorem gaveUp_concat {error : AcceptError} :
    GaveUp (events ++ [e]) error ↔ GaveUp events error ∨ e = .refused error ∧ error.fault = .socket := by
  rw [AcceptError.fault_eq_socket_iff]
  constructor
  · rintro ⟨happened, hconnection, hresources⟩
    rcases List.mem_append.1 happened with h | h
    · exact .inl ⟨h, hconnection, hresources⟩
    · exact .inr ⟨(List.mem_singleton.1 h).symm, hconnection, hresources⟩
  · rintro (⟨happened, hconnection, hresources⟩ | ⟨rfl, hconnection, hresources⟩)
    · exact ⟨List.mem_append_left _ happened, hconnection, hresources⟩
    · exact ⟨List.mem_append_right _ List.mem_cons_self, hconnection, hresources⟩

/-- An event that is no reason to leave the loop. -/
def Event.IsQuiet (e : Event) : Prop := e ≠ .shutdown ∧ ∀ error, e = .refused error → error.fault ≠ .socket

theorem gaveUp_concat_quiet (hquiet : e.IsQuiet) {error : AcceptError} :
    GaveUp (events ++ [e]) error ↔ GaveUp events error := by
  rw [gaveUp_concat]
  exact or_iff_left fun h => hquiet.2 error h.1 h.2

/-- A quiet event leaves the phase where the events before it say. -/
theorem InPhase.quiet (h : InPhase events r) (hquiet : e.IsQuiet) (hpublished : r'.published = r'.phase.upTo)
    (hleft : (r'.phase = .draining ∨ r'.phase = .stopped) ↔ (r.phase = .draining ∨ r.phase = .stopped))
    (hfailed : ∀ reason, r'.failure = some (.accept reason) ↔ r.failure = some (.accept reason))
    (hplaced : ∀ reason, r'.failure = some (.listener reason) → r'.phase = .starting) :
    InPhase (events ++ [e]) r' := by
  have hshutdown : .shutdown ∈ events ++ [e] ↔ .shutdown ∈ events := by
    simp [hquiet.1.symm]
  refine ⟨hpublished, ?_, fun reason => ?_, hplaced⟩
  · simp only [hleft, h.left, hshutdown, gaveUp_concat_quiet hquiet]
  · simp only [hfailed, h.failed, gaveUp_concat_quiet hquiet]

theorem published_settle (h : r.published = r.phase.upTo) : r.settle.published = r.settle.phase.upTo := by
  rcases r.settle_cases with ⟨hphase, -, hsettle⟩ | ⟨-, hsettle⟩
  · rw [hsettle, Run.publish, h, hphase]
    rfl
  · rw [hsettle, h]

theorem phase_settle (r : Run) : r.settle.phase = r.phase ∨ r.phase = .draining ∧ r.settle.phase = .stopped := by
  rcases r.settle_cases with ⟨hphase, -, hsettle⟩ | ⟨-, hsettle⟩
  · exact .inr ⟨hphase, by rw [hsettle, Run.publish]⟩
  · exact .inl (by rw [hsettle])

theorem left_settle (r : Run) :
    (r.settle.phase = .draining ∨ r.settle.phase = .stopped) ↔ (r.phase = .draining ∨ r.phase = .stopped) := by
  rcases phase_settle r with h | ⟨hphase, hsettle⟩
  · rw [h]
  · simp [hphase, hsettle]

/-- Guards that go, and perhaps the last of them. -/
theorem InPhase.settled (h : InPhase events r) (hquiet : e.IsQuiet) (hstarted : r.phase ≠ .starting) {t : Tracked} :
    InPhase (events ++ [e]) ({ r with tracked := t } : Run).settle := by
  refine h.quiet hquiet (published_settle h.published) (left_settle _) (fun reason => ?_) fun reason hlistener => ?_
  · rw [Run.failure_settle]
  · rw [Run.failure_settle] at hlistener
    exact absurd (h.placed reason hlistener) hstarted

/-- Leaving the loop for a reason. -/
theorem InPhase.drain (h : InPhase events r) (hphase : r.phase = .serving) {failure : Option RunError}
    (hreason : .shutdown ∈ events ++ [e] ∨ ∃ error, GaveUp (events ++ [e]) error)
    (hfailure : ∀ reason, failure = some (.accept reason) ↔
      ∃ error, GaveUp (events ++ [e]) error ∧ reason = error.reason)
    (haccept : ∀ reason, failure ≠ some (.listener reason)) :
    InPhase (events ++ [e]) (r.drain failure) := by
  have hdrained : ({ r.publish .draining with failure } : Run).published = Phase.upTo .draining := by
    show r.published ++ [.draining] = _
    rw [h.published, hphase]
    rfl
  have hkept : (r.drain failure).failure = failure := Run.failure_settle _
  constructor
  case published => exact published_settle hdrained
  case left => exact ⟨fun _ => hreason, fun _ => (left_settle _).2 (.inl rfl)⟩
  case failed => exact fun reason => by rw [hkept, hfailure]
  case placed => exact fun reason hlistener => absurd (hkept.symm.trans hlistener) (haccept reason)

theorem InPhase.not_gaveUp (h : InPhase events r) (hphase : r.phase = .serving) (error : AcceptError) :
    ¬ GaveUp events error := by
  intro herror
  have hleft := h.left.2 (.inr ⟨error, herror⟩)
  rw [hphase] at hleft
  exact hleft.elim nofun nofun

/-- Each move keeps the phase in step with the events. -/
theorem InPhase.step (h : InPhase events r) (hmove : r.Moves e r') : InPhase (events ++ [e]) r' := by
  cases hmove with
  | begin hphase hplaced =>
    refine h.quiet ⟨nofun, nofun⟩ ?_ ?_ (fun _ => Iff.rfl) fun reason hlistener => ?_
    · rw [Run.publish, h.published, hphase]
      rfl
    · simp [Run.publish, hphase]
    · exact nomatch hplaced.symm.trans hlistener
  | unplaced hphase hplaced =>
    refine h.quiet ⟨nofun, nofun⟩ h.published Iff.rfl (fun reason => ?_) fun _ _ => hphase
    rw [hplaced]
    exact ⟨nofun, nofun⟩
  | accepted => exact h.quiet ⟨nofun, nofun⟩ h.published Iff.rfl (fun _ => Iff.rfl) h.placed
  | passed resting hphase hfault =>
    refine h.quiet ⟨nofun, fun error he => ?_⟩ h.published Iff.rfl (fun _ => Iff.rfl) h.placed
    obtain rfl := Event.refused.inj he
    exact hfault
  | @gaveUp error hphase hfault =>
    have hlast : GaveUp (events ++ [.refused error]) error := gaveUp_concat.2 (.inr ⟨rfl, hfault⟩)
    refine h.drain hphase (.inr ⟨error, hlast⟩) (fun reason => ⟨fun hreason => ?_, ?_⟩) nofun
    · exact ⟨error, hlast, (RunError.accept.inj (Option.some.inj hreason)).symm⟩
    · rintro ⟨error', herror', rfl⟩
      rcases gaveUp_concat.1 herror' with hbefore | ⟨he, -⟩
      · exact absurd hbefore (h.not_gaveUp hphase error')
      · rw [Event.refused.inj he]
  | shutdown hphase =>
    refine h.drain hphase (.inl (List.mem_append_right _ List.mem_cons_self)) (fun reason => ⟨nofun, ?_⟩) nofun
    rintro ⟨error, herror, -⟩
    rcases gaveUp_concat.1 herror with hbefore | ⟨he, -⟩
    · exact absurd hbefore (h.not_gaveUp hphase error)
    · exact nomatch he
  | rested => exact h.quiet ⟨nofun, nofun⟩ h.published Iff.rfl (fun _ => Iff.rfl) h.placed
  | @finished c hphase =>
    have hstarted : r.phase ≠ .starting := fun hstarting => by
      rw [hstarting] at hphase
      exact hphase.elim nofun nofun
    refine h.settled (t := (r.tracked.drop c).2) ?_ hstarted
    exact ⟨nofun, nofun⟩
  | graceElapsed hphase =>
    obtain ⟨t, ht, -, -⟩ := r.exists_aborted
    rw [ht]
    refine h.settled ?_ (by rw [hphase]; decide)
    exact ⟨nofun, nofun⟩

theorem inPhase_steps (h : Run.start.steps events = some r) : InPhase events r := by
  induction events using List.reverseRecOn generalizing r with
  | nil =>
    obtain rfl := Option.some.inj h
    exact inPhase_start
  | append_singleton events e ih =>
    obtain ⟨mid, hmid, hstep⟩ := Run.steps_concat h
    exact (ih hmid).step (Run.moves_of_step hstep)

/-! ## Tasks -/

/-- A run has the tasks that were neither finished nor aborted. -/
structure HasTasks (events : List Event) (r : Run) : Prop where
  counts : r.tracked.Counts (events.count .accepted)
  tasks : ∀ c, r.hasTask c = true ↔
    (1 ≤ c ∧ c ≤ events.count .accepted) ∧ .finished c ∉ events ∧ .graceElapsed ∉ events
  known : ∀ c, .finished c ∈ events → c ≤ events.count .accepted
  aborted : .graceElapsed ∈ events → r.phase = .stopped
  stopped : r.phase = .stopped → r.tracked.live = []

theorem hasTask_iff {c : Nat} : r.hasTask c = true ↔ ∃ g ∈ r.tracked.live, g.id = c := Tracked.guard?_isSome

theorem hasTasks_start : HasTasks [] .start where
  counts := Tracked.counts_start
  tasks c := by
    refine ⟨fun h => (nomatch h), fun h => ?_⟩
    have hle : c ≤ 0 := h.1.2
    have hpos := h.1.1
    omega
  known _ h := nomatch h
  aborted h := nomatch h
  stopped _ := rfl

/-- An event that no task begins or ends with. -/
theorem HasTasks.idle (h : HasTasks events r) (haccepted : e ≠ .accepted) (hfinished : ∀ c, e ≠ .finished c)
    (hgrace : e ≠ .graceElapsed) (hphase : r.phase ≠ .stopped) (htracked : r'.tracked = r.tracked)
    (hstopped : r'.phase = .stopped → r'.tracked.live = []) : HasTasks (events ++ [e]) r' := by
  have hcount : (events ++ [e]).count .accepted = events.count .accepted := by
    simp [haccepted]
  have hgone : ∀ c, .finished c ∈ events ++ [e] ↔ .finished c ∈ events := fun c => by
    simp [(hfinished c).symm]
  have hlate : .graceElapsed ∈ events ++ [e] ↔ .graceElapsed ∈ events := by
    simp [hgrace.symm]
  constructor
  case counts => rw [hcount, htracked]; exact h.counts
  case tasks =>
    intro c
    rw [hcount, hgone, hlate, ← h.tasks, Run.hasTask, Run.hasTask, htracked]
  case known => exact fun c hc => hcount ▸ h.known c ((hgone c).1 hc)
  case aborted => exact fun hc => absurd (h.aborted (hlate.1 hc)) hphase
  case stopped => exact hstopped

/-- A connection that is accepted becomes a task. -/
theorem HasTasks.accepted (h : HasTasks events r) (hphase : r.phase = .serving) :
    HasTasks (events ++ [.accepted]) r.takeIn := by
  have hcount : (events ++ [Event.accepted]).count .accepted = events.count .accepted + 1 := by simp
  have hgrace : .graceElapsed ∉ events := fun hmem => nomatch hphase.symm.trans (h.aborted hmem)
  have hfresh : .finished (events.count .accepted + 1) ∉ events := fun hmem => by
    have hle := h.known _ hmem
    omega
  constructor
  case counts => rw [hcount]; exact h.counts.track
  case tasks =>
    intro c
    have hmem : r.takeIn.hasTask c = true ↔ c = events.count .accepted + 1 ∨ r.hasTask c = true := by
      rw [hasTask_iff, hasTask_iff]
      exact h.counts.mem_track c
    rw [hmem, h.tasks, hcount]
    simp only [List.mem_append, List.mem_singleton, reduceCtorEq, or_false, hgrace, not_false_eq_true, and_true]
    constructor
    · rintro (rfl | ⟨hrange, hopen⟩)
      · exact ⟨by omega, hfresh⟩
      · exact ⟨by omega, hopen⟩
    · rintro ⟨hrange, hopen⟩
      by_cases hc : c = events.count .accepted + 1
      · exact .inl hc
      · exact .inr ⟨by omega, hopen⟩
  case known =>
    intro c hc
    have hbefore : .finished c ∈ events := by simpa using hc
    have hle := h.known c hbefore
    omega
  case aborted =>
    intro hmem
    exact absurd (by simpa using hmem) hgrace
  case stopped => exact fun hstopped => nomatch hphase.symm.trans hstopped

/-- A run that settles has no tasks when it has stopped. -/
theorem live_of_settle_stopped (hphase : r.phase ≠ .stopped) (h : r.settle.phase = .stopped) :
    r.tracked.live = [] := by
  rcases r.settle_cases with ⟨-, hlive, -⟩ | ⟨-, hsettle⟩
  · exact hlive
  · rw [hsettle] at h
    exact absurd h hphase

/-- A connection that finishes is a task no more, and the last of them ends the draining. -/
theorem HasTasks.finished (h : HasTasks events r) (hphase : r.phase ≠ .stopped) {c : Nat}
    (hthere : r.hasTask c = true) :
    HasTasks (events ++ [.finished c]) (r.without c).settle := by
  have hcount : (events ++ [Event.finished c]).count .accepted = events.count .accepted := by simp
  have htracked : (r.without c).settle.tracked = (r.tracked.drop c).2 := Run.tracked_settle _
  have hgrace : .graceElapsed ∉ events := fun hmem => hphase (h.aborted hmem)
  constructor
  case counts => rw [hcount, htracked]; exact h.counts.drop c
  case tasks =>
    intro k
    have hmem : (r.without c).settle.hasTask k = true ↔ k ≠ c ∧ r.hasTask k = true := by
      rw [hasTask_iff, hasTask_iff, htracked]
      exact h.counts.mem_drop c k
    rw [hmem, h.tasks, hcount]
    simp only [List.mem_append, List.mem_singleton, Event.finished.injEq, reduceCtorEq, or_false, hgrace,
      not_false_eq_true, and_true, not_or]
    constructor
    · rintro ⟨hne, hrange, hopen⟩
      exact ⟨hrange, hopen, hne⟩
    · rintro ⟨hrange, hopen, hne⟩
      exact ⟨hne, hrange, hopen⟩
  case known =>
    intro k hk
    rw [hcount]
    rcases List.mem_append.1 hk with hk | hk
    · exact h.known k hk
    · obtain rfl := Event.finished.inj (List.mem_singleton.1 hk)
      exact ((h.tasks k).1 hthere).1.2
  case aborted => exact fun hmem => absurd (by simpa using hmem) hgrace
  case stopped =>
    intro hstopped
    rw [htracked]
    exact live_of_settle_stopped (r := r.without c) hphase hstopped

/-- When the grace is over there are no tasks left, and the run has stopped. -/
theorem HasTasks.graceElapsed (h : HasTasks events r) (hphase : r.phase = .draining) :
    HasTasks (events ++ [.graceElapsed]) r.aborted.settle ∧ r.aborted.settle.phase = .stopped := by
  have hcount : (events ++ [Event.graceElapsed]).count .accepted = events.count .accepted := by simp
  obtain ⟨t, ht, hlive, hcounts⟩ := r.exists_aborted
  have htracked : r.aborted.settle.tracked = t := by rw [Run.tracked_settle, ht]
  have hstopped : r.aborted.settle.phase = .stopped := by
    rw [ht, Run.settle, if_pos ⟨hphase, hlive⟩, Run.publish]
  refine ⟨?_, hstopped⟩
  constructor
  case counts => rw [hcount, htracked]; exact hcounts _ h.counts
  case tasks =>
    intro c
    rw [hasTask_iff, htracked, hlive]
    refine ⟨fun ⟨g, hg, _⟩ => (nomatch hg), fun hall => ?_⟩
    exact absurd (List.mem_append_right _ List.mem_cons_self) hall.2.2
  case known =>
    intro c hc
    rw [hcount]
    exact h.known c (by simpa using hc)
  case aborted => exact fun _ => hstopped
  case stopped => exact fun _ => htracked ▸ hlive

/-- Each move keeps the tasks in step with the events. -/
theorem HasTasks.step (h : HasTasks events r) (hmove : r.Moves e r') : HasTasks (events ++ [e]) r' := by
  cases hmove with
  | begin hphase =>
    exact h.idle nofun nofun nofun (by rw [hphase]; decide) rfl nofun
  | unplaced hphase =>
    exact h.idle nofun nofun nofun (by rw [hphase]; decide) rfl fun hstopped => nomatch hphase.symm.trans hstopped
  | accepted hphase => exact h.accepted hphase
  | passed resting hphase =>
    exact h.idle nofun nofun nofun (by rw [hphase]; decide) rfl fun hstopped => nomatch hphase.symm.trans hstopped
  | gaveUp hphase =>
    refine h.idle nofun nofun nofun (by rw [hphase]; decide) (Run.tracked_settle _) fun hstopped => ?_
    rw [Run.drain, Run.tracked_settle]
    exact live_of_settle_stopped nofun hstopped
  | shutdown hphase =>
    refine h.idle nofun nofun nofun (by rw [hphase]; decide) (Run.tracked_settle _) fun hstopped => ?_
    rw [Run.drain, Run.tracked_settle]
    exact live_of_settle_stopped nofun hstopped
  | rested hphase =>
    exact h.idle nofun nofun nofun (by rw [hphase]; decide) rfl fun hstopped => nomatch hphase.symm.trans hstopped
  | finished hphase hthere =>
    have hrunning : r.phase ≠ .stopped := fun hstopped => by
      rw [hstopped] at hphase
      exact hphase.elim nofun nofun
    exact h.finished hrunning hthere
  | graceElapsed hphase => exact (h.graceElapsed hphase).1

theorem hasTasks_steps (h : Run.start.steps events = some r) : HasTasks events r := by
  induction events using List.reverseRecOn generalizing r with
  | nil =>
    obtain rfl := Option.some.inj h
    exact hasTasks_start
  | append_singleton events e ih =>
    obtain ⟨mid, hmid, hstep⟩ := Run.steps_concat h
    exact (ih hmid).step (Run.moves_of_step hstep)

theorem HasTasks.openCount_eq (h : HasTasks events r) : r.openCount = r.tracked.live.length := by
  rw [Run.openCount, Trackers.activeCount, h.counts.active]
  rfl

theorem HasTasks.openCount_eq_card (h : HasTasks events r) :
    r.openCount = ((Finset.Icc 1 (events.count .accepted)).filter fun c => r.hasTask c = true).card := by
  have hset : (r.tracked.live.map (·.id)).toFinset =
      (Finset.Icc 1 (events.count .accepted)).filter fun c => r.hasTask c = true := by
    ext c
    rw [List.mem_toFinset, List.mem_map, ← hasTask_iff, Finset.mem_filter, Finset.mem_Icc]
    exact ⟨fun hc => ⟨((h.tasks c).1 hc).1, hc⟩, fun hc => hc.2⟩
  rw [h.openCount_eq, ← hset, List.toFinset_card_of_nodup h.counts.distinct, List.length_map]

/-! ## Runs -/

/-- A run fails exactly when it has stopped after it gave up on accepting. -/
theorem InPhase.returned?_eq_error_iff (h : InPhase events r) (hstarted : r.phase ≠ .starting) {e : RunError} :
    r.returned? = some (.error e) ↔
      r.phase = .stopped ∧ ∃ error, GaveUp events error ∧ e = .accept error.reason := by
  have hreturned : r.returned? = some (.error e) ↔ r.phase = .stopped ∧ r.failure = some e := by
    unfold Run.returned?
    split <;> simp_all
  rw [hreturned]
  refine and_congr_right fun _ => ?_
  cases e with
  | accept reason =>
    rw [h.failed]
    simp
  | listener reason =>
    exact ⟨fun hlistener => absurd (h.placed reason hlistener) hstarted, fun ⟨_, _, he⟩ => (nomatch he)⟩

/-- A run succeeds exactly when it has stopped without giving up. -/
theorem InPhase.returned?_eq_ok_iff (h : InPhase events r) (hstarted : r.phase ≠ .starting) :
    r.returned? = some (.ok ()) ↔ r.phase = .stopped ∧ ¬ ∃ error, GaveUp events error := by
  have hreturned : r.returned? = some (.ok ()) ↔ r.phase = .stopped ∧ r.failure = none := by
    unfold Run.returned?
    split <;> simp_all
  rw [hreturned]
  refine and_congr_right fun _ => ?_
  constructor
  · rintro hnone ⟨error, herror⟩
    exact nomatch hnone.symm.trans ((h.failed error.reason).2 ⟨error, herror, rfl⟩)
  · intro hnone
    cases hfailure : r.failure with
    | none => rfl
    | some e =>
      cases e with
      | accept reason =>
        obtain ⟨error, herror, -⟩ := (h.failed reason).1 hfailure
        exact absurd ⟨error, herror⟩ hnone
      | listener reason => exact absurd (h.placed reason hfailure) hstarted

/-- Every run is orderly, whatever happens to it and in whatever order. -/
theorem orderly_steps {events : List Event} {r : Run} (h : Run.start.steps events = some r) : Orderly events r := by
  have hphase := inPhase_steps h
  have htasks := hasTasks_steps h
  constructor
  case ordered => exact hphase.published ▸ r.phase.upTo_prefix
  case latest => rw [hphase.published, Phase.getLast?_upTo]
  case accepting =>
    rintro before rest rfl
    rw [Run.steps_append] at h
    obtain ⟨mid, hmid, hrest⟩ := Option.bind_eq_some_iff.1 h
    obtain ⟨after, hstep, -⟩ := Option.bind_eq_some_iff.1 hrest
    refine ⟨mid, hmid, ?_⟩
    cases Run.moves_of_step hstep with
    | accepted hserving => rw [(inPhase_steps hmid).published, hserving, Phase.upTo]
  case draining => rw [hphase.published, Phase.draining_mem_upTo, hphase.left]
  case tasks => exact htasks.tasks
  case counted => exact htasks.openCount_eq_card
  case stopped =>
    intro hstopped
    rw [hphase.published, Phase.stopped_mem_upTo] at hstopped
    have hlive := htasks.stopped hstopped
    refine ⟨by rw [htasks.openCount_eq, hlive, List.length_nil], fun c hpos hle => ?_⟩
    have hgone : r.hasTask c ≠ true := by
      rw [Ne, hasTask_iff, hlive]
      exact fun ⟨g, hg, _⟩ => nomatch hg
    refine ⟨Bool.eq_false_iff.2 hgone, ?_⟩
    by_contra hneither
    exact hgone ((htasks.tasks c).2 ⟨⟨hpos, hle⟩, not_or.1 hneither⟩)
  case ending =>
    intro hdraining
    refine ⟨r.aborted.settle, ?_, (htasks.graceElapsed hdraining).2⟩
    simp only [Run.step, hdraining]
  case failed =>
    intro hserving e
    rw [hphase.published] at hserving ⊢
    rw [Phase.stopped_mem_upTo]
    exact hphase.returned?_eq_error_iff (Phase.serving_mem_upTo.1 hserving)
  case succeeded =>
    intro hserving
    rw [hphase.published] at hserving ⊢
    rw [Phase.stopped_mem_upTo]
    exact hphase.returned?_eq_ok_iff (Phase.serving_mem_upTo.1 hserving)

/-- A server that could not accept a connection for want of descriptors and rested, and that gave up when its socket
failed; of its two tasks one finished and one was aborted. -/
def eventful : List Event :=
  [.begin, .accepted, .refused ⟨.linux, .other, some 24, "too many open files"⟩, .finished 1, .rested, .accepted,
    .refused ⟨.linux, .other, some 9, "bad file descriptor"⟩, .graceElapsed]

theorem orderly_steps_eventful :
    ∃ r, Run.start.steps eventful = some r ∧ Orderly eventful r ∧
      r.returned? = some (.error (.accept "bad file descriptor")) :=
  ⟨_, rfl, orderly_steps rfl, by decide⟩

end Speedtest.Serving
