import Speedtest.Proofs.Json.Writing
import Speedtest.Proofs.Service.Provider
import Speedtest.Proofs.Service.Unauthorized
import Speedtest.Proofs.Time.Instants

/-!
# What is given out is read back

A record and a profile are read from what they are written as, whatever their texts are. So a body that shows results
holds exactly the records that the store gave, in their order, and a body that tells a client its address holds what the
client was to be told, though a profile with nothing in its `readme` is written without it.
-/
namespace Speedtest

/-! ## Records -/

namespace Telemetry.Record

theorem wellWritten_toJson (r : Record) : r.toJson.WellWritten := Json.wellWritten_ofFields _

theorem map_fst_fields (r : Record) : (fieldNames.zip r.fieldTexts).map Prod.fst = fieldNames := rfl

theorem map_snd_fields (r : Record) : (fieldNames.zip r.fieldTexts).map Prod.snd = r.fieldTexts := rfl

theorem nodup_fieldNames : fieldNames.Nodup := by decide

theorem ofTexts?_fieldTexts {r : Record} (h : r.timestamp.InYears) : ofTexts? r.fieldTexts = some r := by
  rw [fieldTexts, ofTexts?, String.toList_ofList, Time.Instant.ofText?_text h]
  rfl

/-- A record is read from its document as it was. -/
theorem ofJson?_toJson {r : Record} (h : r.timestamp.InYears) : ofJson? r.toJson = some r := by
  have hnames : ((fieldNames.zip r.fieldTexts).map Prod.fst).Nodup := nodup_fieldNames
  have hread : r.toJson.readFields? fieldNames = some (fieldNames.zip r.fieldTexts) :=
    Json.readFields?_ofFields (fun f hf => (List.of_mem_zip hf).1) hnames
  have htexts := Json.mapM_lookup hnames
  rw [map_fst_fields, map_snd_fields] at htexts
  simp only [ofJson?, hread, htexts, Option.bind_eq_bind, Option.bind_some, ofTexts?_fieldTexts h]

end Telemetry.Record

/-! ## Profiles -/

namespace Geo.Profile

def writtenFields (p : Profile) : List (String × String) :=
  [("ip", p.ip), ("hostname", p.hostname), ("city", p.city), ("region", p.region), ("country", p.country),
    ("loc", p.location), ("org", p.organization), ("postal", p.postal), ("timezone", p.timezone)] ++
  if p.readme = "" then [] else [("readme", p.readme)]

theorem toJson_eq (p : Profile) : p.toJson = .ofFields p.writtenFields := rfl

theorem wellWritten_toJson (p : Profile) : p.toJson.WellWritten := Json.wellWritten_ofFields _

theorem readFields?_toJson (p : Profile) : p.toJson.readFields? fieldNames = some p.writtenFields := by
  rw [toJson_eq, writtenFields]
  split
  · exact Json.readFields?_ofFields (by simp [fieldNames]) (by simp)
  · exact Json.readFields?_ofFields (by simp [fieldNames]) (by simp)

/-- A profile is written with its `readme` only where there is something in it. -/
theorem lookup_readme (p : Profile) :
    p.writtenFields.lookup "readme" = if p.readme = "" then none else some p.readme := by
  rw [writtenFields]
  split <;> rfl

/-- A profile is read from its document as it was: what is left out of it is empty. -/
theorem ofJson?_toJson (p : Profile) : ofJson? p.toJson = some p := by
  rw [ofJson?, readFields?_toJson, Option.map_some, writtenFields]
  by_cases hreadme : p.readme = ""
  · have hempty : ({ p with readme := "" } : Profile) = p := by rw [← hreadme]
    rw [if_pos hreadme]
    exact congrArg some hempty
  · rw [if_neg hreadme]
    rfl

end Geo.Profile

namespace Service

/-! ## Pages and answers -/

theorem page_eq (recs : List Telemetry.Record) :
    page recs = .ofMembers [("data", .array (recs.map Telemetry.Record.toJson))] := rfl

theorem wellWritten_page (recs : List Telemetry.Record) : (page recs).WellWritten := by
  rw [page_eq]
  refine Json.wellWritten_ofMembers fun m hm => ?_
  obtain rfl := List.mem_singleton.1 hm
  refine .array fun v hv => ?_
  obtain ⟨rec, -, rfl⟩ := List.mem_map.1 hv
  exact rec.wellWritten_toJson

/-- The results of a page are read from it as they were, in their order. -/
theorem pageRecords?_page {recs : List Telemetry.Record} (h : ∀ rec ∈ recs, rec.timestamp.InYears) :
    pageRecords? (page recs) = some recs := by
  have hmembers : (page recs).readMembers? some ["data"] =
      some [("data", .array (recs.map Telemetry.Record.toJson))] := by
    rw [page_eq]
    exact Json.readMembers?_some (by simp) (by simp)
  have hitems : (recs.map Telemetry.Record.toJson).mapM Telemetry.Record.ofJson? = some recs := by
    refine Json.mapM_eq_some ?_
    rw [List.forall₂_map_left_iff]
    exact List.forall₂_same.2 fun rec hrec => Telemetry.Record.ofJson?_toJson (h rec hrec)
  simp only [pageRecords?, hmembers, List.lookup_cons_self, Option.bind_eq_bind, Option.bind_some, hitems]

namespace Whereabouts

theorem toJson_eq (w : Whereabouts) :
    w.toJson = .ofMembers [("processedString", .ofText w.summary), ("rawIspInfo", w.profile.toJson)] := rfl

theorem wellWritten_toJson (w : Whereabouts) : w.toJson.WellWritten := by
  rw [toJson_eq]
  refine Json.wellWritten_ofMembers fun m hm => ?_
  rcases List.mem_pair.1 hm with rfl | rfl
  · exact Json.wellWritten_ofText w.summary
  · exact w.profile.wellWritten_toJson

/-- What a client is told is read from the answer as it was. -/
theorem ofJson?_toJson (w : Whereabouts) : ofJson? w.toJson = some w := by
  have hmembers : w.toJson.readMembers? some ["processedString", "rawIspInfo"] =
      some [("processedString", .ofText w.summary), ("rawIspInfo", w.profile.toJson)] := by
    rw [toJson_eq]
    exact Json.readMembers?_some (by simp) (by simp)
  have hprofile : [("processedString", Json.ofText w.summary), ("rawIspInfo", w.profile.toJson)].lookup "rawIspInfo" =
      some w.profile.toJson := rfl
  simp only [ofJson?, hmembers, List.lookup_cons_self, hprofile, Option.bind_eq_bind, Option.bind_some,
    Json.text?_ofText, Geo.Profile.ofJson?_toJson]
  rfl

end Whereabouts

/-! ## Responses -/

/-- A response whose body holds a value. A question for the fields alone goes without a body. -/
def Holds {α : Type} (r : Http.Request) (response : Http.Response) (decode? : Json → Option α) (a : α) : Prop :=
  ∃ bytes, response.body = (if r.method = "HEAD" then .empty else .bytes bytes) ∧
    (Json.read? bytes).bind decode? = some a

variable {s : Service} {r : Http.Request} {m : Moment} {st : State}

theorem read?_bind {α : Type} {decode? : Json → Option α} {v : Json} {a : α} (h : v.WellWritten)
    (hdecode : decode? v = some a) : (Json.read? v.write).bind decode? = some a := by
  rw [Json.read?_write h, Option.bind_some, hdecode]

/-- Whoever may read results is shown some only where the store gave them. -/
theorem exists_fetched_of_mayRead (h : MayRead s r) (hstatus : (s.exchange m r st).1.response.status = 200) :
    ∃ params recs, loginParameters r = .ok params ∧
      fetch st.store ((params.lookup "id").getD "") = .ok recs ∧ Shows r (s.exchange m r st).1.response recs := by
  obtain ⟨hfind, hanswers, hstats, hgate, params, hparams, hauthorized⟩ := h
  obtain ⟨hshown, hbody⟩ := response_of_authorized hstats hgate hfind hanswers hparams hauthorized m st
  have hfailed : (Http.Response.bare 500).status ≠ 200 := by decide
  cases hfetch : fetch st.store ((params.lookup "id").getD "") with
  | ok recs =>
    rw [hfetch] at hbody
    exact ⟨params, recs, hparams, hfetch, hstatus, hbody⟩
  | failed e =>
    rw [hshown, hfetch] at hstatus
    exact absurd hstatus hfailed
  | crashed =>
    rw [hshown, hfetch] at hstatus
    exact absurd hstatus hfailed

theorem Shows.holds {response : Http.Response} {recs : List Telemetry.Record} (h : Shows r response recs)
    (hyears : ∀ rec ∈ recs, rec.timestamp.InYears) : Holds r response pageRecords? recs :=
  ⟨_, h.body, read?_bind (wellWritten_page recs) (pageRecords?_page hyears)⟩

theorem Told.holds {response : Http.Response} {w : Whereabouts} (h : Told r response w) :
    Holds r response Whereabouts.ofJson? w :=
  ⟨_, h, read?_bind w.wellWritten_toJson w.ofJson?_toJson⟩

/-- A question for an address over a connection that is not known fails. -/
theorem clientText?_of_status (hfind : Endpoint.find? s.mount r.target.path = some .getIp)
    (hanswers : Endpoint.getIp.answersTo r.method = true)
    (hstatus : (s.exchange m r st).1.response.status = 200) : ∃ client, s.clientText? r = some client := by
  cases hclient : s.clientText? r with
  | some client => exact ⟨client, rfl⟩
  | none =>
    have hoptions : r.method ≠ "OPTIONS" := Text.ne_of_kind hanswers (by decide)
    have houtcome : (handle s m .getIp r st).outcome = withFields unknownConnection noCacheFields := by
      simp [handle, hclient, State.respond, Handled.outcome]
    rw [(response_exchange m st hfind hoptions hanswers).1, houtcome, status_withFields] at hstatus
    exact absurd hstatus (by decide)

/-- Records of years with four digits and all profiles are read from what they are written as, though a profile is
written without a `readme` that has nothing in it. A response that shows results to someone who may read them holds the
records that the store gave, in their order, and one that tells a client its address holds what the client was to be
told. -/
theorem given_out_reads_back :
    (∀ rec : Telemetry.Record, rec.timestamp.InYears →
      (Json.read? rec.toJson.write).bind Telemetry.Record.ofJson? = some rec) ∧
    (∀ p : Geo.Profile, (Json.read? p.toJson.write).bind Geo.Profile.ofJson? = some p ∧
      ((p.toJson.readFields? Geo.Profile.fieldNames).bind fun fields => fields.lookup "readme") =
        if p.readme = "" then none else some p.readme) ∧
    (∀ (s : Service) (m : Moment) (r : Http.Request) (st : State), MayRead s r →
      (s.exchange m r st).1.response.status = 200 →
      ∃ params recs, loginParameters r = .ok params ∧ fetch st.store ((params.lookup "id").getD "") = .ok recs ∧
        ((∀ rec ∈ recs, rec.timestamp.InYears) → Holds r (s.exchange m r st).1.response pageRecords? recs)) ∧
    ∀ (s : Service) (m : Moment) (r : Http.Request) (st : State),
      Endpoint.find? s.mount r.target.path = some .getIp → Endpoint.getIp.answersTo r.method = true →
      (s.exchange m r st).1.response.status = 200 →
      ∃ client, s.clientText? r = some client ∧
        Holds r (s.exchange m r st).1.response Whereabouts.ofJson? (whereabouts s m.reply client r).result := by
  refine ⟨fun rec h => ?_, fun p => ?_, fun s m r st h hstatus => ?_, fun s m r st hfind hanswers hstatus => ?_⟩
  · exact read?_bind rec.wellWritten_toJson (Telemetry.Record.ofJson?_toJson h)
  · refine ⟨read?_bind p.wellWritten_toJson p.ofJson?_toJson, ?_⟩
    rw [Geo.Profile.readFields?_toJson, Option.bind_some, Geo.Profile.lookup_readme]
  · obtain ⟨params, recs, hparams, hfetch, hshows⟩ := exists_fetched_of_mayRead h hstatus
    exact ⟨params, recs, hparams, hfetch, hshows.holds⟩
  · obtain ⟨client, hclient⟩ := clientText?_of_status hfind hanswers hstatus
    obtain ⟨-, -, htold⟩ := exchange_getIp hfind hanswers hclient m st
    exact ⟨client, hclient, htold.holds⟩

/-- A record of a day that only leap years have, with what a string cannot hold as it is. -/
def awkward : Telemetry.Record :=
  { Telemetry.Record.blank with
    timestamp := ⟨951827696, 120000000⟩
    ispInfo := "a \"quoted\" name\\"
    log := "\x01\t😀" }

def keepsAwkward : State := ⟨.recent ((Telemetry.Recent.empty 1).insert awkward), .start⟩

/-- Quotes, control characters and letters outside ASCII come back as they went out. -/
theorem given_out_reads_back_awkward :
    (Json.read? awkward.toJson.write).bind Telemetry.Record.ofJson? = some awkward ∧
    (Json.read? ({ city := "Zürich" } : Geo.Profile).toJson.write).bind Geo.Profile.ofJson? =
      some { city := "Zürich" } ∧
    Holds (asking "L100").2 ((plain "secret").exchange (asking "L100").1 (asking "L100").2 keepsAwkward).1.response
      pageRecords? [awkward] ∧
    Holds (askedFrom ⟨127, 0, 0, 1⟩) (askedCurious .closed ⟨127, 0, 0, 1⟩).response Whereabouts.ofJson?
      ⟨"127.0.0.1 - localhost IPv4 access", {}⟩ := by
  obtain ⟨hrecord, hprofile, hresults, haddress⟩ := given_out_reads_back
  have hyears : awkward.timestamp.InYears := ⟨by decide +kernel, by decide +kernel, by decide⟩
  refine ⟨hrecord awkward hyears, (hprofile _).1, ?_, ?_⟩
  · have hread : MayRead (plain "secret") (asking "L100").2 :=
      ⟨by decide +kernel, by decide, rfl, rfl, _, rfl, by decide +kernel⟩
    obtain ⟨params, recs, hparams, hfetch, hholds⟩ :=
      hresults (plain "secret") (asking "L100").1 (asking "L100").2 keepsAwkward hread (by decide +kernel)
    have hid : (params.lookup "id").getD "" = "L100" := by
      obtain rfl := Except.ok.inj hparams
      decide +kernel
    rw [hid] at hfetch
    have hkept : fetch keepsAwkward.store "L100" = .ok [awkward] := rfl
    obtain rfl : [awkward] = recs := Telemetry.Outcome.ok.inj (hkept.symm.trans hfetch)
    exact hholds fun rec hrec => List.mem_singleton.1 hrec ▸ hyears
  · obtain ⟨client, hclient, hholds⟩ :=
      haddress curious ⟨.epoch, "record", "drawn", .closed⟩ (askedFrom ⟨127, 0, 0, 1⟩) ⟨.forgetful, .start⟩
        (by decide +kernel) (by decide) (by decide +kernel)
    have hlocal : curious.clientText? (askedFrom ⟨127, 0, 0, 1⟩) = some "127.0.0.1" := by decide +kernel
    obtain rfl := Option.some.inj (hlocal.symm.trans hclient)
    have htold : (whereabouts curious .closed "127.0.0.1" (askedFrom ⟨127, 0, 0, 1⟩)).result =
        ⟨"127.0.0.1 - localhost IPv4 access", {}⟩ := by decide +kernel
    rwa [htold] at hholds

end Service
end Speedtest
