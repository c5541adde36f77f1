import Speedtest.Proofs.Settings.Agreement

/-!
# What is reported of settings

A setting is looked at whatever is wrong with the others, so each problem of a single setting is reported, and once.
The networks of relays are read as a whole and only up to the first entry that is none. So of several such entries
one is reported, and the list of problems is the whole list exactly where there is no second one.
-/
namespace Speedtest.Settings

open Address.AllowList (BadEntry named? bare)

/-- The entries that name no network, in their order and without the blanks around them. -/
def badEntries (entries : List String) : List BadEntry :=
  (entries.filter fun entry => (named? entry).isNone).map fun entry => ⟨String.ofList (bare entry)⟩

/-- A problem of a single setting. -/
inductive Raises (s : Settings) : Problem → Prop where
  | relayPort (set : s.relayPort ≠ "") (used : s.relayPort ≠ "0") : Raises s .relayPort
  | badPort (set : s.listenPort ≠ "") (none : ¬ ∃ n < 65536, Text.WritesCount s.listenPort.toList n) :
    Raises s (.badPort s.listenPort)
  | missingCertificate (tls : s.tls = true) (missing : s.tlsCertFile = "") :
    Raises s (.missingTlsFile "tls_cert_file")
  | missingKey (tls : s.tls = true) (missing : s.tlsKeyFile = "") : Raises s (.missingTlsFile "tls_key_file")
  | unknownDatabase (unknown : s.databaseType ∉ ["memory", "none", "postgresql", "mysql", "bolt"]) :
    Raises s (.unknownDatabase s.databaseType)
  | tooManyChunks (many : 1024 < s.downloadChunks) : Raises s (.tooManyChunks s.downloadChunks)

/-- Problems that are reported of settings: each of a single setting once, the entries in their order, and nothing
else. -/
def Reports (s : Settings) (entries : List BadEntry) (problems : List Problem) : Prop :=
  ∃ front back, problems = front ++ entries.map .badNetwork ++ back ∧ (front ++ back).Nodup ∧
    ∀ p, p ∈ front ++ back ↔ Raises s p

/-! ## Networks -/

theorem badEntries_of_named {entries : List String} (h : ∀ e ∈ entries, named? e ≠ none) : badEntries entries = [] := by
  have hnone : (entries.filter fun entry => (named? entry).isNone) = [] := by
    rw [List.filter_eq_nil_iff]
    intro e he hempty
    exact h e he (Option.isNone_iff_eq_none.1 hempty)
  rw [badEntries, hnone]
  rfl

theorem badEntries_append (front back : List String) :
    badEntries (front ++ back) = badEntries front ++ badEntries back := by
  rw [badEntries, List.filter_append, List.map_append]
  rfl

theorem badEntries_cons_of_not_named {entry : String} (h : named? entry = none) (entries : List String) :
    badEntries (entry :: entries) = ⟨String.ofList (bare entry)⟩ :: badEntries entries := by
  rw [badEntries, List.filter_cons_of_pos (by rw [h]; rfl), List.map_cons]
  rfl

/-- Of the entries that name no network the first is reported. -/
theorem networkProblems_eq (entries : List String) :
    networkProblems entries = ((badEntries entries).take 1).map .badNetwork := by
  unfold networkProblems
  rcases Address.AllowList.ofEntries_cases entries with ⟨networks, hread, hnamed⟩ | ⟨bad, hread, hbad⟩
  · have hnone : badEntries entries = [] :=
      badEntries_of_named fun e he => Address.AllowList.named_of_networks hnamed he
    rw [hread, hnone]
    rfl
  · obtain ⟨before, entry, after, rfl, hbefore, hentry, rfl⟩ := hbad
    rw [hread, badEntries_append, badEntries_of_named hbefore, badEntries_cons_of_not_named hentry]
    rfl

/-! ## Single settings -/

def problemsAhead (s : Settings) : List Problem :=
  (if s.usesRelayPort then [.relayPort] else []) ++
  (if s.listenPort != "" && (portNumber? s.listenPort).isNone then [.badPort s.listenPort] else [])

/-- What is reported behind the networks. -/
def problemsBehind (s : Settings) : List Problem :=
  (if s.tls && s.tlsCertFile == "" then [.missingTlsFile "tls_cert_file"] else []) ++
  (if s.tls && s.tlsKeyFile == "" then [.missingTlsFile "tls_key_file"] else []) ++
  (if Telemetry.isKnownBackend s.databaseType then [] else [.unknownDatabase s.databaseType]) ++
  (if Download.maxChunks < s.downloadChunks then [.tooManyChunks s.downloadChunks] else [])

theorem problems_eq (s : Settings) :
    s.problems = s.problemsAhead ++ networkProblems s.trustedRelays ++ s.problemsBehind := by
  simp only [problems, problemsAhead, problemsBehind, List.append_assoc]

theorem nodup_problems (s : Settings) : (s.problemsAhead ++ s.problemsBehind).Nodup := by
  unfold problemsAhead problemsBehind
  repeat' split
  all_goals simp

theorem portNumber?_eq_none_iff {port : String} :
    portNumber? port = none ↔ ¬ ∃ n < 65536, Text.WritesCount port.toList n := by
  rw [portNumber?, Text.readCount?_eq_none_iff]
  simp only [not_exists, not_and]
  exact forall_congr' fun n => ⟨fun h hlt hwrites => absurd (h hwrites) (Nat.not_le.2 hlt),
    fun h hwrites => Nat.not_lt.1 fun hlt => h hlt hwrites⟩

theorem isKnownBackend_eq_false_iff {name : String} :
    Telemetry.isKnownBackend name = false ↔ name ∉ ["memory", "none", "postgresql", "mysql", "bolt"] := by
  rw [Telemetry.isKnownBackend, Telemetry.externalNames, ← Bool.not_eq_true]
  simp only [Bool.or_eq_true, beq_iff_eq, List.contains_iff_mem, List.mem_cons, or_assoc]

/-- Problems other than those of networks are reported exactly where the settings raise them. -/
theorem raises_iff {s : Settings} {p : Problem} : p ∈ s.problemsAhead ++ s.problemsBehind ↔ Raises s p := by
  simp only [problemsAhead, problemsBehind, usesRelayPort, List.mem_append, List.mem_ite_nil_right,
    List.mem_ite_nil_left, List.mem_singleton, Bool.and_eq_true, bne_iff_ne, Option.isNone_iff_eq_none, beq_iff_eq,
    Bool.not_eq_true, portNumber?_eq_none_iff, isKnownBackend_eq_false_iff]
  constructor
  · rintro ((⟨⟨hset, hused⟩, rfl⟩ | ⟨⟨hset, hnone⟩, rfl⟩) |
      (((⟨⟨htls, hfile⟩, rfl⟩ | ⟨⟨htls, hfile⟩, rfl⟩) | ⟨hunknown, rfl⟩) | ⟨hmany, rfl⟩))
    · exact .relayPort hset hused
    · exact .badPort hset hnone
    · exact .missingCertificate htls hfile
    · exact .missingKey htls hfile
    · exact .unknownDatabase hunknown
    · exact .tooManyChunks hmany
  · rintro (⟨hset, hused⟩ | ⟨hset, hnone⟩ | ⟨htls, hfile⟩ | ⟨htls, hfile⟩ | ⟨hunknown⟩ | ⟨hmany⟩)
    · exact .inl (.inl ⟨⟨hset, hused⟩, rfl⟩)
    · exact .inl (.inr ⟨⟨hset, hnone⟩, rfl⟩)
    · exact .inr (.inl (.inl (.inl ⟨⟨htls, hfile⟩, rfl⟩)))
    · exact .inr (.inl (.inl (.inr ⟨⟨htls, hfile⟩, rfl⟩)))
    · exact .inr (.inl (.inr ⟨hunknown, rfl⟩))
    · exact .inr (.inr ⟨hmany, rfl⟩)

/-! ## All problems -/

/-- The entry that a problem is about, if it is about one. -/
def Problem.badNetwork? : Problem → Option BadEntry
  | .badNetwork entry => some entry
  | _ => none

theorem Raises.badNetwork? {s : Settings} {p : Problem} (h : Raises s p) : p.badNetwork? = none := by
  cases h <;> rfl

/-- The entries that are reported can be told from the problems. -/
theorem Reports.entries {s : Settings} {entries : List BadEntry} {problems : List Problem}
    (h : Reports s entries problems) : problems.filterMap Problem.badNetwork? = entries := by
  obtain ⟨front, back, rfl, -, hraises⟩ := h
  have hsingle {part : List Problem} (hpart : ∀ p ∈ part, p ∈ front ++ back) :
      part.filterMap Problem.badNetwork? = [] := by
    rw [List.filterMap_eq_nil_iff]
    exact fun p hp => ((hraises p).1 (hpart p hp)).badNetwork?
  have hentries : (entries.map Problem.badNetwork).filterMap Problem.badNetwork? = entries := by
    rw [List.filterMap_map]
    exact List.filterMap_some
  rw [List.filterMap_append, List.filterMap_append, hsingle fun p => List.mem_append_left back,
    hsingle fun p => List.mem_append_right front, hentries, List.nil_append, List.append_nil]

theorem reports_problems (s : Settings) : Reports s ((badEntries s.trustedRelays).take 1) s.problems := by
  refine ⟨s.problemsAhead, s.problemsBehind, ?_, nodup_problems s, fun p => raises_iff⟩
  rw [problems_eq, networkProblems_eq]

/-- Every problem of a single setting is reported once, and of the entries for networks the first that is none. So
all problems are reported exactly where at most one such entry is there. -/
theorem reports_all_iff (s : Settings) :
    Reports s ((badEntries s.trustedRelays).take 1) s.problems ∧
    (Reports s (badEntries s.trustedRelays) s.problems ↔ (badEntries s.trustedRelays).length ≤ 1) := by
  have hfirst := reports_problems s
  refine ⟨hfirst, fun hall => ?_, fun hle => ?_⟩
  · have hsame := hall.entries
    rw [hfirst.entries] at hsame
    have hlength := congrArg List.length hsame
    rw [List.length_take] at hlength
    omega
  · rwa [List.take_of_length_le hle] at hfirst

/-- Two entries that are no networks, the second of which is not reported. -/
theorem not_reports_all_twoEntries :
    let s : Settings := { trustedRelays := ["10.0.0.0/99", "::1", "not-a-network"] }
    badEntries s.trustedRelays = [⟨"10.0.0.0/99"⟩, ⟨"not-a-network"⟩] ∧
      s.problems = [.badNetwork ⟨"10.0.0.0/99"⟩] ∧ ¬ Reports s (badEntries s.trustedRelays) s.problems := by
  intro s
  have hentries : badEntries s.trustedRelays = [⟨"10.0.0.0/99"⟩, ⟨"not-a-network"⟩] := by decide
  have hproblems : s.problems = [.badNetwork ⟨"10.0.0.0/99"⟩] := by decide
  refine ⟨hentries, hproblems, fun hall => ?_⟩
  have hsame := hall.entries
  rw [hentries, hproblems] at hsame
  exact absurd hsame (by decide)

end Speedtest.Settings
