import Mathlib.Data.List.Forall2
import Speedtest.Proofs.Toml.Assigning
import Speedtest.Settings.Environment

/-!
# Variables over the file

What each setting comes to is decided by the last variable that names it, and by the file when none does. A text is the
raw text of the variable. Any other value is the one that the raw text starts with when it is put behind an equals sign:
whatever else it holds, further lines and assignments among it, gets into no other setting.
-/
namespace Speedtest.Settings

variable {content : String} {environment before after : List (String × String)} {w : String × String}
variable {name raw : String} {s s' : Settings} {t t' : Toml.Table} {v : Toml.Value}

/-! ## The settings and their names -/

/-- A setting: its name, its type, how a value of a document is read as one, and where it is kept. -/
structure Setting where
  name : String
  Kind : Type
  read : Toml.Value → Option Kind
  get : Settings → Kind

def texts : List (String × (Settings → String)) :=
  [("bind_address", bindAddress), ("listen_port", listenPort), ("url_base", urlBase),
    ("proxyprotocol_port", relayPort), ("ipinfo_api_key", lookupKey), ("ipinfo_url", lookupUrl),
    ("statistics_password", statisticsPassword), ("database_type", databaseType),
    ("database_hostname", databaseHostname), ("database_name", databaseName),
    ("database_username", databaseUsername), ("database_password", databasePassword),
    ("database_file", databaseFile), ("tls_cert_file", tlsCertFile), ("tls_key_file", tlsKeyFile),
    ("metrics_address", metricsAddress), ("log_level", logLevel)]

def Setting.ofText (k : String × (Settings → String)) : Setting := ⟨k.1, String, asText?, k.2⟩

/-- The settings of the other types. -/
def valued : List Setting :=
  [⟨"enable_proxyprotocol", Bool, asBool?, relayHeaders⟩,
    ⟨"proxyprotocol_allowed_ips", List String, asTexts?, trustedRelays⟩,
    ⟨"server_lat", Float, asFloat?, serverLat⟩, ⟨"server_lng", Float, asFloat?, serverLng⟩,
    ⟨"redact_ip_addresses", Bool, asBool?, redactAddresses⟩, ⟨"enable_http2", Bool, asBool?, http2⟩,
    ⟨"enable_tls", Bool, asBool?, tls⟩, ⟨"download_chunks", Nat, asCount? (Nat.pow 2 32), downloadChunks⟩,
    ⟨"shutdown_grace_secs", Nat, asCount? (Nat.pow 2 64), shutdownGraceSeconds⟩,
    ⟨"trust_forwarded_headers", Bool, asBool?, trustForwardedHeaders⟩]

def all : List Setting := texts.map .ofText ++ valued

/-- The settings of a table are read one by one, each from its own name. -/
theorem ofTable?_eq_some_iff :
    ofTable? t = some s ↔ ∀ k ∈ all, setting t k.name k.read (k.get {}) = some (k.get s) := by
  simp only [all, texts, valued, Setting.ofText, List.map_cons, List.map_nil, List.cons_append, List.nil_append,
    List.forall_mem_cons, List.not_mem_nil, false_imp_iff, implies_true, and_true]
  constructor
  · intro h
    unfold ofTable? at h
    iterate 27 obtain ⟨_, _, h⟩ := Option.bind_eq_some_iff.1 h
    obtain rfl := Option.some.inj h
    repeat' constructor
    all_goals assumption
  · intro h
    simp only [ofTable?, h, Option.bind_eq_bind, Option.bind_some]
    rfl

theorem setting_congr {α : Type} {read : Toml.Value → Option α} {default : α} (h : t.get? name = t'.get? name) :
    setting t name read default = setting t' name read default := by
  rw [setting, setting, h]

/-- Only the values under the names of settings count. -/
theorem ofTable?_congr (h : ∀ k ∈ all, t.get? k.name = t'.get? k.name) : ofTable? t = ofTable? t' := by
  refine Option.ext fun s => ?_
  rw [ofTable?_eq_some_iff, ofTable?_eq_some_iff]
  refine forall₂_congr fun k hk => ?_
  rw [setting_congr (h k hk)]

theorem textNames_eq : textNames = texts.map Prod.fst := rfl

theorem not_isText {k : Setting} (hk : k ∈ valued) : k.name ∉ textNames := by
  have hall : ∀ name ∈ valued.map Setting.name, name ∉ textNames := by decide
  exact hall k.name (List.mem_map_of_mem hk)

/-- A text is none of the other settings. -/
theorem read_text {k : Setting} (hk : k ∈ valued) (raw : String) : k.read (.text raw) = none := by
  simp only [valued, List.mem_cons, List.not_mem_nil, or_false] at hk
  rcases hk with rfl | rfl | rfl | rfl | rfl | rfl | rfl | rfl | rfl | rfl <;> rfl

/-! ## The variables and the settings they name -/

/-- A character with one that has it as its lower case: itself, when it is no capital; or its capital, among which the
Kelvin sign is one of the letter k. -/
inductive IsLowerOf : Char → Char → Prop where
  | same {c : Char} : ¬ ('A' ≤ c ∧ c ≤ 'Z') → c ≠ Char.ofNat 0x212A → IsLowerOf c c
  | capital {c : Char} : 'A' ≤ c → c ≤ 'Z' → IsLowerOf (Char.ofNat (c.toNat + 32)) c
  | kelvin : IsLowerOf 'k' (Char.ofNat 0x212A)

/-- A variable names a setting when it is the lead and a spelling of the name behind it. -/
def Names (variableName name : String) : Prop :=
  ∃ spelling : String, variableName = variableLead ++ spelling ∧ List.Forall₂ IsLowerOf name.toList spelling.toList

/-- The Kelvin sign has the lower case of an ASCII letter, and every other character that of ASCII. -/
theorem isLowerOf_iff {c d : Char} :
    IsLowerOf c d ↔ c = if d = Char.ofNat 0x212A then 'k' else Text.asciiLower d := by
  constructor
  · rintro (⟨hcapital, hkelvin⟩ | ⟨hfirst, hlast⟩ | _)
    · rw [if_neg hkelvin, Text.asciiLower, if_neg hcapital]
    · have hkelvin : d ≠ Char.ofNat 0x212A := by
        rintro rfl
        exact absurd hlast (by decide)
      rw [if_neg hkelvin, Text.asciiLower, if_pos ⟨hfirst, hlast⟩]
    · rfl
  · rintro rfl
    split
    case isTrue hkelvin => exact hkelvin ▸ .kelvin
    case isFalse hkelvin =>
      rw [Text.asciiLower]
      split
      case isTrue hcapital => exact .capital hcapital.1 hcapital.2
      case isFalse hcapital => exact .same hcapital hkelvin

theorem lowerName_eq_iff {s : List Char} : lowerName s = name ↔ List.Forall₂ IsLowerOf name.toList s := by
  have heach : List.Forall₂ IsLowerOf name.toList s ↔
      name.toList = s.map fun c => if c = Char.ofNat 0x212A then 'k' else Text.asciiLower c := by
    rw [← List.forall₂_eq_eq_eq, List.forall₂_map_right_iff]
    exact ⟨.imp fun _ _ => isLowerOf_iff.1, .imp fun _ _ => isLowerOf_iff.2⟩
  rw [heach, lowerName]
  constructor
  · rintro rfl
    exact String.toList_ofList
  · intro h
    rw [← h, String.ofList_toList]

/-- A variable names a setting by its own name, in any case, behind the lead. -/
theorem settingNamed?_eq_some_iff {variableName : String} :
    settingNamed? variableName = some name ↔ Names variableName name := by
  rw [settingNamed?, Option.map_eq_some_iff, Names]
  constructor
  · rintro ⟨s, hs, hname⟩
    refine ⟨String.ofList s, ?_, ?_⟩
    · rw [← String.toList_inj, String.toList_append, String.toList_ofList]
      exact Text.dropLead?_eq_some_iff.1 hs
    · rw [String.toList_ofList]
      exact lowerName_eq_iff.1 hname
  · rintro ⟨spelling, rfl, hspelling⟩
    refine ⟨spelling.toList, ?_, lowerName_eq_iff.2 hspelling⟩
    rw [String.toList_append]
    exact Text.dropLead?_append _ _

/-- The last variable that names a setting has this raw text. -/
def LastNaming (environment : List (String × String)) (name raw : String) : Prop :=
  ∃ before variableName after, environment = before ++ (variableName, raw) :: after ∧ Names variableName name ∧
    ∀ v ∈ after, ¬ Names v.1 name

/-- No variable names the setting. -/
def NoneNaming (environment : List (String × String)) (name : String) : Prop := ∀ v ∈ environment, ¬ Names v.1 name

/-! ## The table under the variables -/

theorem lookup_without {other : String} (h : name ≠ other) (t : Toml.Table) :
    (t.filter (·.1 != other)).lookup name = t.lookup name := by
  induction t with
  | nil => rfl
  | cons m t ih =>
    by_cases hm : m.1 = other
    · have hname : (name == m.1) = false := beq_eq_false_iff_ne.2 (hm ▸ h)
      rw [List.filter_cons_of_neg (by simp [hm]), ih, List.lookup_cons, hname]
    · rw [List.filter_cons_of_pos (by simp [hm]), List.lookup_cons, List.lookup_cons, ih]

theorem lookup_without_self (name : String) (t : Toml.Table) : (t.filter (·.1 != name)).lookup name = none := by
  rw [List.lookup_eq_none_iff]
  intro m hm
  have hne : m.1 ≠ name := bne_iff_ne.1 (List.mem_filter.1 hm).2
  exact bne_iff_ne.2 hne.symm

theorem get?_insert_self (t : Toml.Table) (name : String) (v : Toml.Value) : (t.insert name v).get? name = some v := by
  rw [Toml.Table.get?, Toml.Table.insert, List.lookup_append, lookup_without_self, List.lookup_cons, beq_self_eq_true]
  rfl

theorem get?_insert_of_ne {other : String} (h : name ≠ other) (t : Toml.Table) (v : Toml.Value) :
    (t.insert other v).get? name = t.get? name := by
  have hbeq : (name == other) = false := beq_eq_false_iff_ne.2 h
  rw [Toml.Table.get?, Toml.Table.insert, List.lookup_append, lookup_without h, List.lookup_cons, hbeq]
  exact Option.or_none

theorem get?_applyVariable_of_not_names (h : ¬ Names w.1 name) (t : Toml.Table) :
    (applyVariable t w).get? name = t.get? name := by
  rw [applyVariable]
  split
  case h_1 other hother =>
    have hne : name ≠ other := by
      rintro rfl
      exact h (settingNamed?_eq_some_iff.1 hother)
    exact get?_insert_of_ne hne t _
  case h_2 => rfl

theorem get?_applyVariable_of_names {variableName : String} (h : Names variableName name) (t : Toml.Table) :
    (applyVariable t (variableName, raw)).get? name = some (variableValue name raw) := by
  rw [applyVariable, settingNamed?_eq_some_iff.2 h]
  exact get?_insert_self t name _

theorem get?_applyVariable_congr (h : t.get? name = t'.get? name) (w : String × String) :
    (applyVariable t w).get? name = (applyVariable t' w).get? name := by
  by_cases hw : Names w.1 name
  · exact (get?_applyVariable_of_names hw t).trans (get?_applyVariable_of_names hw t').symm
  · rw [get?_applyVariable_of_not_names hw, get?_applyVariable_of_not_names hw, h]

theorem get?_foldl_congr (h : t.get? name = t'.get? name) :
    (environment.foldl applyVariable t).get? name = (environment.foldl applyVariable t').get? name := by
  induction environment generalizing t t' with
  | nil => exact h
  | cons w environment ih => exact ih (get?_applyVariable_congr h w)

theorem get?_foldl_of_noneNaming (h : NoneNaming environment name) (t : Toml.Table) :
    (environment.foldl applyVariable t).get? name = t.get? name := by
  induction environment generalizing t with
  | nil => rfl
  | cons w environment ih =>
    obtain ⟨hw, henvironment⟩ := List.forall_mem_cons.1 h
    rw [List.foldl_cons, ih henvironment, get?_applyVariable_of_not_names hw]

theorem get?_foldl_of_lastNaming (h : LastNaming environment name raw) (t : Toml.Table) :
    (environment.foldl applyVariable t).get? name = some (variableValue name raw) := by
  obtain ⟨before, variableName, after, rfl, hnames, hafter⟩ := h
  rw [List.foldl_append, List.foldl_cons, get?_foldl_of_noneNaming hafter, get?_applyVariable_of_names hnames]

/-- A variable can be left out for every setting that it does not name. -/
theorem get?_foldl_without (h : ¬ Names w.1 name) (t : Toml.Table) :
    ((before ++ w :: after).foldl applyVariable t).get? name = ((before ++ after).foldl applyVariable t).get? name := by
  rw [List.foldl_append, List.foldl_append, List.foldl_cons]
  exact get?_foldl_congr (get?_applyVariable_of_not_names h _)

/-! ## What the settings come to -/

/-- A raw text gives a value when the document that assigns it is well formed and it starts, blanks apart, with the
value. -/
structure Gives (raw : String) (v : Toml.Value) : Prop where
  document : (Toml.read? ("v = ".toList ++ raw.toList)).isSome
  value : ∃ rest, Toml.value? (Toml.nestingLimit - 1) (Toml.skipBlanks raw.toList) = some (v, rest)

/-- A value with no more than blanks and a comment behind it is given. -/
theorem gives_alone {rest : List Char}
    (hvalue : Toml.value? (Toml.nestingLimit - 1) (Toml.skipBlanks raw.toList) = some (v, rest))
    (htail : Toml.lineTail? rest = some []) : Gives raw v :=
  ⟨by rw [Toml.read?_assignment_alone hvalue htail]; rfl, rest, hvalue⟩

example : Gives "8 # chunks" (.integer 8) := by
  have hvalue : Toml.value? (Toml.nestingLimit - 1) (Toml.skipBlanks "8 # chunks".toList) =
      some (.integer 8, " # chunks".toList) := by rfl
  exact gives_alone hvalue (by rfl)

/-- What a variable is read as is given by its raw text, unless it is the raw text itself. -/
theorem readValue_spec (raw : String) : readValue raw = .text raw ∨ Gives raw (readValue raw) := by
  rw [readValue]
  cases hread : Toml.read? ("v = ".toList ++ raw.toList) with
  | none => exact .inl rfl
  | some t =>
    obtain ⟨v, rest, hvalue, hget⟩ := Toml.get?_assignment hread
    rw [Option.bind_some, hget]
    exact .inr ⟨by rw [hread]; rfl, rest, hvalue⟩

/-- What the settings come to over the table of the file. -/
structure Overridden (t : Toml.Table) (environment : List (String × String)) (s : Settings) : Prop where
  text : ∀ k ∈ texts, ∀ raw, LastNaming environment k.1 raw → k.2 s = raw
  value : ∀ k ∈ valued, ∀ raw, LastNaming environment k.name raw → ∃ v, Gives raw v ∧ k.read v = some (k.get s)
  file : ∀ k ∈ all, ∀ v, NoneNaming environment k.name → t.get? k.name = some v → k.read v = some (k.get s)
  missing : ∀ k ∈ all, NoneNaming environment k.name → t.get? k.name = none → k.get s = k.get {}

theorem setting_of_get? {α : Type} {read : Toml.Value → Option α} {default : α} (h : t.get? name = some v) :
    setting t name read default = read v := by
  rw [setting, h]

theorem setting_of_missing {α : Type} {read : Toml.Value → Option α} {default : α} (h : t.get? name = none) :
    setting t name read default = some default := by
  rw [setting, h]

/-- Each setting is that of the last variable that names it, or else that of the file. -/
theorem overridden (h : ofTable? (environment.foldl applyVariable t) = some s) : Overridden t environment s := by
  rw [ofTable?_eq_some_iff] at h
  refine ⟨fun k hk raw hlast => ?_, fun k hk raw hlast => ?_, fun k hk v hnone hget => ?_, fun k hk hnone hget => ?_⟩
  · have hread : setting (environment.foldl applyVariable t) k.1 asText? (k.2 {}) = some (k.2 s) :=
      h (.ofText k) (List.mem_append_left _ (List.mem_map_of_mem hk))
    have hname : textNames.contains k.1 = true := by
      rw [List.contains_iff_mem, textNames_eq]
      exact List.mem_map_of_mem hk
    rw [setting_of_get? (get?_foldl_of_lastNaming hlast t), variableValue, if_pos hname] at hread
    exact (Option.some.inj hread).symm
  · have hread := h k (List.mem_append_right _ hk)
    have hname : ¬ textNames.contains k.name = true := by
      rw [List.contains_iff_mem]
      exact not_isText hk
    rw [setting_of_get? (get?_foldl_of_lastNaming hlast t), variableValue, if_neg hname] at hread
    rcases readValue_spec raw with htext | hgives
    · rw [htext, read_text hk] at hread
      exact nomatch hread
    · exact ⟨_, hgives, hread⟩
  · rw [← h k hk, setting_of_get? ((get?_foldl_of_noneNaming hnone t).trans hget)]
  · have hread := h k hk
    rw [setting_of_missing ((get?_foldl_of_noneNaming hnone t).trans hget)] at hread
    exact (Option.some.inj hread).symm

theorem ofText?_eq (content : String) (environment : List (String × String)) : ofText? content environment =
    (Toml.read? content.toList).bind fun t => ofTable? (environment.foldl applyVariable t) := rfl

theorem ofText?_eq_some_iff : ofText? content environment = some s ↔
    ∃ t, Toml.read? content.toList = some t ∧ ofTable? (environment.foldl applyVariable t) = some s := by
  rw [ofText?_eq, Option.bind_eq_some_iff]

/-- A variable that names no setting counts for nothing. -/
theorem ofText?_without (h : ∀ k ∈ all, ¬ Names w.1 k.name) (content : String) :
    ofText? content (before ++ w :: after) = ofText? content (before ++ after) := by
  rw [ofText?_eq, ofText?_eq]
  exact Option.bind_congr fun t _ => ofTable?_congr fun k hk => get?_foldl_without (h k hk) t

/-- A variable leaves the settings that it does not name. -/
theorem get_without {k : Setting} (hk : k ∈ all) (h : ¬ Names w.1 k.name)
    (hwith : ofText? content (before ++ w :: after) = some s) (hwithout : ofText? content (before ++ after) = some s') :
    k.get s = k.get s' := by
  obtain ⟨t, hread, hs⟩ := ofText?_eq_some_iff.1 hwith
  obtain ⟨t', hread', hs'⟩ := ofText?_eq_some_iff.1 hwithout
  obtain rfl := Option.some.inj (hread.symm.trans hread')
  have hget := ofTable?_eq_some_iff.1 hs k hk
  have hget' := ofTable?_eq_some_iff.1 hs' k hk
  rw [setting_congr (get?_foldl_without h t)] at hget
  exact Option.some.inj (hget.symm.trans hget')

/-- The last variable that names a setting decides it, then the file, then the value that the service ships with; and
whatever a variable holds, it gets into no setting but the one it names. -/
theorem variables_over_file (content : String) :
    (∀ environment s, ofText? content environment = some s →
      ∃ t, Toml.read? content.toList = some t ∧ Overridden t environment s) ∧
    (∀ before w after s s', ofText? content (before ++ w :: after) = some s →
      ofText? content (before ++ after) = some s' → ∀ k ∈ all, ¬ Names w.1 k.name → k.get s = k.get s') ∧
    (∀ before w after, (∀ k ∈ all, ¬ Names w.1 k.name) →
      ofText? content (before ++ w :: after) = ofText? content (before ++ after)) := by
  refine ⟨fun environment s h => ?_, fun before w after s s' hwith hwithout k hk h => ?_, fun before w after h => ?_⟩
  · obtain ⟨t, hread, hs⟩ := ofText?_eq_some_iff.1 h
    exact ⟨t, hread, overridden hs⟩
  · exact get_without hk h hwith hwithout
  · exact ofText?_without h content

/-- The lines behind a value leave the other settings, and so does a variable without the lead. -/
theorem variables_over_file_spliced :
    ∃ s s', ofText? "url_base = 'x'"
        [("SPEEDTEST_Log_Level", "#[\n\"9"), ("SPEEDTEST_DOWNLOAD_CHUNKS", "8\nenable_tls = true")] = some s ∧
      ofText? "url_base = 'x'" [("SPEEDTEST_Log_Level", "#[\n\"9")] = some s' ∧
      (∃ t, Toml.read? "url_base = 'x'".toList = some t ∧
        Overridden t [("SPEEDTEST_Log_Level", "#[\n\"9"), ("SPEEDTEST_DOWNLOAD_CHUNKS", "8\nenable_tls = true")] s) ∧
      s.tls = s'.tls ∧
      ofText? "url_base = 'x'" [("LOG_LEVEL", "debug")] = ofText? "url_base = 'x'" [] := by
  obtain ⟨s, hwith⟩ := Option.isSome_iff_exists.1 (show (ofText? "url_base = 'x'"
    [("SPEEDTEST_Log_Level", "#[\n\"9"), ("SPEEDTEST_DOWNLOAD_CHUNKS", "8\nenable_tls = true")]).isSome = true by
      decide +kernel)
  obtain ⟨s', hwithout⟩ := Option.isSome_iff_exists.1 (show (ofText? "url_base = 'x'"
    [("SPEEDTEST_Log_Level", "#[\n\"9")]).isSome = true by decide +kernel)
  have htls : ¬ Names "SPEEDTEST_DOWNLOAD_CHUNKS" "enable_tls" := by
    rw [← settingNamed?_eq_some_iff]
    decide +kernel
  have hnone : ∀ k ∈ all, ¬ Names "LOG_LEVEL" k.name := by
    have hother : settingNamed? "LOG_LEVEL" = none := by decide +kernel
    intro k _
    rw [← settingNamed?_eq_some_iff, hother]
    exact nofun
  obtain ⟨hover, hframe, hunknown⟩ := variables_over_file "url_base = 'x'"
  exact ⟨s, s', hwith, hwithout, hover _ _ hwith,
    hframe [("SPEEDTEST_Log_Level", "#[\n\"9")] _ [] _ _ hwith hwithout ⟨"enable_tls", Bool, asBool?, tls⟩
      (by simp [all, valued]) htls,
    hunknown [] ("LOG_LEVEL", "debug") [] hnone⟩

end Speedtest.Settings
