import Speedtest.Proofs.Http.Bases
import Speedtest.Serving.Server

/-!
# Where building ends

Everything that building a server reads from files and settings can only make it fail, and then it says why. The base
is the exception: nothing looks at it before the endpoints are mounted, and a base that cannot be mounted makes building
crash, whatever else is in the settings. Settings without a problem are no exception.
-/
namespace Speedtest.Serving

/-! ## Steps -/

/-- Two stages crash where the first does, or the second behind it. -/
theorem Building.bind_eq_crashed_iff {α β : Type} {b : Building α} {f : α → Building β} :
    b >>= f = .crashed ↔ b = .crashed ∨ ∃ a, b = .done a ∧ f a = .crashed := by
  cases b with
  | done a =>
    constructor
    · intro h
      exact .inr ⟨a, rfl, h⟩
    · rintro (h | ⟨a', h, hf⟩)
      · exact nomatch h
      · obtain rfl := Building.done.inj h
        exact hf
  | failed e =>
    refine iff_of_false nofun ?_
    rintro (h | ⟨a, h, -⟩) <;> exact nomatch h
  | crashed => exact iff_of_true rfl (.inl rfl)

theorem Building.bind_eq_done_iff {α β : Type} {b : Building α} {f : α → Building β} {c : β} :
    b >>= f = .done c ↔ ∃ a, b = .done a ∧ f a = .done c := by
  cases b with
  | done a =>
    constructor
    · intro h
      exact ⟨a, rfl, h⟩
    · rintro ⟨a', h, hf⟩
      obtain rfl := Building.done.inj h
      exact hf
  | failed e => exact iff_of_false nofun fun ⟨_, h, _⟩ => nomatch h
  | crashed => exact iff_of_false nofun fun ⟨_, h, _⟩ => nomatch h

theorem Building.ofExcept_ne_crashed {ε α : Type} (wrap : ε → StartupError) (e : Except ε α) :
    Building.ofExcept wrap e ≠ .crashed := by
  cases e <;> nofun

theorem identityOf_ne_crashed (files : Files) (s : Settings) : identityOf files s ≠ .crashed := by
  unfold identityOf
  split
  · exact Building.ofExcept_ne_crashed _ _
  · nofun

theorem relaysOf_ne_crashed (s : Settings) : relaysOf s ≠ .crashed := by
  unfold relaysOf
  split
  · exact Building.ofExcept_ne_crashed _ _
  · nofun

theorem mountOf_eq_crashed_iff (s : Settings) :
    mountOf s = .crashed ↔ ¬ ∃ m, Http.Mount.IsMount s.urlBase m := by
  simp only [← Http.Mount.ofBase?_eq_some_iff]
  unfold mountOf
  cases Http.Mount.ofBase? s.urlBase with
  | none => exact iff_of_true rfl nofun
  | some m => exact iff_of_false nofun fun h => h ⟨m, rfl⟩

/-! ## Building -/

/-- A server that was built serves what the settings say, at some mount. -/
theorem service_of_build {files : Files} {s : Settings} {chunk : Bytes} {coordinate : Geo.Coordinate}
    {lookup : Geo.Lookup} {server : Server} (h : Server.build files s chunk coordinate lookup = .done server) :
    ∃ mount, server.service = serviceOf s mount chunk coordinate lookup := by
  obtain ⟨mount, -, h⟩ := Building.bind_eq_done_iff.1 h
  obtain ⟨identity, -, h⟩ := Building.bind_eq_done_iff.1 h
  obtain ⟨relays, -, h⟩ := Building.bind_eq_done_iff.1 h
  obtain rfl := Building.done.inj h
  exact ⟨mount, rfl⟩

/-- Building crashes exactly where the base cannot be mounted. -/
theorem build_eq_crashed_iff (files : Files) (s : Settings) (chunk : Bytes) (coordinate : Geo.Coordinate)
    (lookup : Geo.Lookup) :
    Server.build files s chunk coordinate lookup = .crashed ↔ ¬ ∃ m, Http.Mount.IsMount s.urlBase m := by
  rw [← mountOf_eq_crashed_iff, Server.build, Building.bind_eq_crashed_iff]
  refine or_iff_left ?_
  rintro ⟨mount, -, h⟩
  rcases Building.bind_eq_crashed_iff.1 h with h | ⟨identity, -, h⟩
  · exact identityOf_ne_crashed files s h
  · rcases Building.bind_eq_crashed_iff.1 h with h | ⟨relays, -, h⟩
    · exact relaysOf_ne_crashed s h
    · exact nomatch h

/-- A base that opens a parameter and does not close it is no problem of the settings. -/
theorem build_crashed_openBrace :
    let s : Settings := { urlBase := "/\x7ba" }
    s.problems = [] ∧ ∀ files chunk coordinate lookup, Server.build files s chunk coordinate lookup = .crashed := by
  intro s
  have hmount : Http.Mount.ofBase? s.urlBase = none := by decide +kernel
  refine ⟨by decide, fun files chunk coordinate lookup => ?_⟩
  rw [Server.build, mountOf, hmount]
  rfl

end Speedtest.Serving
