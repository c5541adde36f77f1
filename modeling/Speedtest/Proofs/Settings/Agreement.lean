import Speedtest.Proofs.Address.Trusting
import Speedtest.Proofs.Text.Numeral
import Speedtest.Serving.Listener

/-!
# What is checked is what is needed

Settings are checked before anything is started with them, and the stages of the start read some of them again: the
port, the port of relays, the networks of relays, and the name of the backend. Each problem that the check reports is
the failure of the stage that reads the same setting, with the same entry or name in it. So settings without a
problem get past all these stages.
-/
namespace Speedtest

namespace Settings

/-! ## Problems -/

theorem mem_networkProblems {entries : List String} {p : Problem} :
    p ∈ networkProblems entries ↔ ∃ entry, Address.AllowList.ofEntries entries = .error entry ∧ p = .badNetwork entry := by
  unfold networkProblems
  cases Address.AllowList.ofEntries entries with
  | ok list => simp
  | error entry => simp

/-- Each kind of problem comes from one setting, and every setting is looked at. -/
theorem mem_problems {s : Settings} {p : Problem} :
    p ∈ s.problems ↔
      (s.usesRelayPort = true ∧ p = .relayPort) ∨
      (s.listenPort ≠ "" ∧ portNumber? s.listenPort = none ∧ p = .badPort s.listenPort) ∨
      (∃ entry, Address.AllowList.ofEntries s.trustedRelays = .error entry ∧ p = .badNetwork entry) ∨
      (s.tls = true ∧ s.tlsCertFile = "" ∧ p = .missingTlsFile "tls_cert_file") ∨
      (s.tls = true ∧ s.tlsKeyFile = "" ∧ p = .missingTlsFile "tls_key_file") ∨
      (Telemetry.isKnownBackend s.databaseType = false ∧ p = .unknownDatabase s.databaseType) ∨
      (Download.maxChunks < s.downloadChunks ∧ p = .tooManyChunks s.downloadChunks) := by
  simp only [problems, List.mem_append, mem_networkProblems, or_assoc]
  simp only [List.mem_ite_nil_right, List.mem_ite_nil_left, List.mem_singleton, Bool.and_eq_true, bne_iff_ne, ne_eq,
    Option.isNone_iff_eq_none, beq_iff_eq, and_assoc, Bool.not_eq_true]

theorem downloadChunks_le {s : Settings} (h : s.problems = []) : s.downloadChunks ≤ Download.maxChunks := by
  rw [← Nat.not_lt]
  intro hmany
  have hproblem : Problem.tooManyChunks s.downloadChunks ∈ s.problems :=
    mem_problems.2 (by simp [hmany])
  rw [h] at hproblem
  exact List.not_mem_nil hproblem

end Settings

namespace Serving

/-! ## Ports -/

/-- A port is missing, is none, or is a number. -/
theorem readPort_cases (port : String) :
    (port = "" ∧ readPort port = .ok 0) ∨
    (port ≠ "" ∧ Settings.portNumber? port = none ∧ readPort port = .error (.badPort port)) ∨
    ∃ n, port ≠ "" ∧ Settings.portNumber? port = some n ∧ readPort port = .ok (UInt16.ofNat n) := by
  unfold readPort
  by_cases hempty : port = ""
  · exact .inl ⟨hempty, if_pos hempty⟩
  · rw [if_neg hempty]
    cases hnumber : Settings.portNumber? port with
    | none => exact .inr (.inl ⟨hempty, rfl, rfl⟩)
    | some n => exact .inr (.inr ⟨n, hempty, rfl, rfl⟩)

variable {s : Settings}

theorem resolve_nil (h : s.usesRelayPort = false) :
    Source.resolve s [] = (readPort s.listenPort).map (.fresh s.bindAddress) := by
  rw [Source.resolve, h]
  rfl

/-- The port for relays is refused exactly where the settings still use it. -/
theorem resolve_eq_relayPort_iff (inherited : List Socket) :
    Source.resolve s inherited = .error .relayPort ↔ s.usesRelayPort = true := by
  cases huses : s.usesRelayPort with
  | true => simp [Source.resolve, huses]
  | false =>
    refine iff_of_false ?_ Bool.false_ne_true
    cases inherited with
    | nil =>
      rw [resolve_nil huses]
      rcases readPort_cases s.listenPort with ⟨-, hport⟩ | ⟨-, -, hport⟩ | ⟨n, -, -, hport⟩ <;>
        rw [hport] <;> nofun
    | cons socket rest =>
      cases rest with
      | nil => cases hbind : s.hasExplicitBind <;> simp [Source.resolve, huses, hbind]
      | cons other rest => simp [Source.resolve, huses]

theorem resolve_eq_badPort_iff (h : s.usesRelayPort = false) (port : String) :
    Source.resolve s [] = .error (.badPort port) ↔
      s.listenPort ≠ "" ∧ Settings.portNumber? s.listenPort = none ∧ port = s.listenPort := by
  rw [resolve_nil h]
  rcases readPort_cases s.listenPort with ⟨hempty, hport⟩ | ⟨hset, hnone, hport⟩ | ⟨n, hset, hsome, hport⟩
  · rw [hport]
    exact iff_of_false nofun fun hbad => hbad.1 hempty
  · rw [hport, Except.map, Except.error.injEq, ListenerError.badPort.injEq]
    exact ⟨fun hsame => ⟨hset, hnone, hsame.symm⟩, fun hbad => hbad.2.2.symm⟩
  · rw [hport, hsome]
    exact iff_of_false nofun fun hbad => nomatch hbad.2.1

/-- Where the port is one, or is missing, a socket is opened at it. -/
theorem resolve_fresh (h : s.usesRelayPort = false)
    (hport : ∀ port, Source.resolve s [] ≠ .error (.badPort port)) :
    ∃ port : UInt16, Source.resolve s [] = .ok (.fresh s.bindAddress port) ∧
      (s.listenPort = "" ∧ port = 0 ∨ Text.WritesCount s.listenPort.toList port.toNat) := by
  rcases readPort_cases s.listenPort with ⟨hempty, hread⟩ | ⟨hset, hnone, -⟩ | ⟨n, -, hsome, hread⟩
  · exact ⟨0, by rw [resolve_nil h, hread]; rfl, .inl ⟨hempty, rfl⟩⟩
  · exact absurd ((resolve_eq_badPort_iff h _).2 ⟨hset, hnone, rfl⟩) (hport _)
  · obtain ⟨hwrites, hlt⟩ := Text.readCount?_eq_some_iff.1 hsome
    refine ⟨UInt16.ofNat n, by rw [resolve_nil h, hread]; rfl, .inr ?_⟩
    rwa [UInt16.toNat_ofNat_of_lt' hlt]

end Serving

/-! ## Backends -/

theorem Telemetry.ofName_eq_unknownBackend_iff {name unknown : String} :
    Store.ofName name = .error (.unknownBackend unknown) ↔ isKnownBackend name = false ∧ unknown = name := by
  unfold Store.ofName isKnownBackend
  by_cases hmemory : name = "memory"
  · simp [hmemory]
  by_cases hnone : name = "none"
  · simp [hnone]
  cases hexternal : externalNames.contains name with
  | true => simp [hmemory, hnone]
  | false => simpa [hmemory, hnone] using eq_comm

/-! ## Chunks -/

theorem Download.chunkCount_le {default : Nat} (requested : Option String) (h : default ≤ maxChunks) :
    chunkCount requested default ≤ maxChunks := by
  unfold chunkCount
  cases requested with
  | none => exact h
  | some text =>
    dsimp only
    cases Text.readCount? (Nat.pow 2 64) text.toList with
    | none => exact h
    | some n => exact Nat.min_le_right n maxChunks

/-! ## Agreement -/

namespace Serving

open Settings Telemetry

/-- Each problem with the settings is what a stage of the start fails with. The stage that opens the socket looks at
the port for relays first, so what it says about its own port shows once the former is cleared. -/
structure Agree (s : Settings) : Prop where
  relayPort (inherited : List Socket) :
    .relayPort ∈ s.problems ↔ Source.resolve s inherited = .error .relayPort
  badPort (cleared port : String) (h : cleared = "" ∨ cleared = "0") :
    .badPort port ∈ s.problems ↔ Source.resolve { s with relayPort := cleared } [] = .error (.badPort port)
  badNetwork (entry : Address.AllowList.BadEntry) :
    .badNetwork entry ∈ s.problems ↔ Address.AllowList.ofEntries s.trustedRelays = .error entry
  unknownDatabase (name : String) :
    .unknownDatabase name ∈ s.problems ↔ Store.ofName s.databaseType = .error (.unknownBackend name)

/-- What the stages of the start make of settings that they can start with. -/
structure Startable (s : Settings) : Prop where
  fresh : ∃ port : UInt16, Source.resolve s [] = .ok (.fresh s.bindAddress port) ∧
    (s.listenPort = "" ∧ port = 0 ∨ Text.WritesCount s.listenPort.toList port.toNat)
  networks : ∃ list, Address.AllowList.ofEntries s.trustedRelays = .ok list ∧
    list.networks.length = s.trustedRelays.length
  known (name : String) : Store.ofName s.databaseType ≠ .error (.unknownBackend name)
  chunks (requested : Option String) : Download.chunkCount requested s.downloadChunks ≤ 1024

theorem agree (s : Settings) : Agree s where
  relayPort inherited := by
    rw [mem_problems, resolve_eq_relayPort_iff]
    simp
  badPort cleared port h := by
    have hunused : { s with relayPort := cleared }.usesRelayPort = false := by
      rcases h with rfl | rfl <;> rfl
    rw [mem_problems, resolve_eq_badPort_iff hunused]
    constructor
    · intro h
      simpa using h
    · intro ⟨hset, hnone, hport⟩
      exact .inr (.inl ⟨hset, hnone, congrArg Problem.badPort hport⟩)
  badNetwork entry := by
    rw [mem_problems]
    simp
  unknownDatabase name := by
    rw [mem_problems, ofName_eq_unknownBackend_iff]
    simp

theorem startable {s : Settings} (h : s.problems = []) : Startable s := by
  have hagree := agree s
  have hnone (p : Problem) : p ∉ s.problems := h ▸ List.not_mem_nil
  have hunused : s.usesRelayPort = false := by
    rw [← Bool.not_eq_true, ← resolve_eq_relayPort_iff [], ← hagree.relayPort]
    exact hnone _
  refine ⟨resolve_fresh hunused fun port hbad => ?_, ?_, fun name hunknown => ?_, fun requested => ?_⟩
  · obtain ⟨hset, hnumber, hport⟩ := (resolve_eq_badPort_iff hunused port).1 hbad
    exact hnone (.badPort port) (mem_problems.2 (.inr (.inl ⟨hset, hnumber, congrArg _ hport⟩)))
  · cases hread : Address.AllowList.ofEntries s.trustedRelays with
    | ok list => exact ⟨list, rfl, ((Address.AllowList.checked_ofEntries s.trustedRelays).length list hread).1⟩
    | error entry => exact absurd ((hagree.badNetwork entry).2 hread) (hnone _)
  · exact hnone _ ((hagree.unknownDatabase name).2 hunknown)
  · exact Download.chunkCount_le requested (downloadChunks_le h)

/-- The check of settings and the stages of the start agree, and settings without a problem can be started with. -/
theorem problems_agree (s : Settings) : Agree s ∧ (s.problems = [] → Startable s) :=
  ⟨agree s, startable⟩

/-- A port behind a plus sign, networks with blanks around them, and a backend without a driver are no problem. -/
theorem problems_agree_unusual :
    let s : Settings := {
      listenPort := "+08080", relayPort := "", trustedRelays := [" 10.0.0.0/255.0.0.0 ", "::ffff:0:0/96"]
      databaseType := "bolt", downloadChunks := 1024 }
    s.problems = [] ∧ Agree s ∧ Startable s := by
  intro s
  have hnone : s.problems = [] := by decide
  exact ⟨hnone, (problems_agree s).1, (problems_agree s).2 hnone⟩

end Serving

end Speedtest
