import Speedtest.Proofs.Download.Counts
import Speedtest.Proofs.Form.Decoding
import Speedtest.Proofs.Service.Submissions
import Speedtest.Proofs.Serving.Building
import Speedtest.Proofs.Settings.Agreement

/-!
# How often a download repeats its chunk

A server built from settings without a problem answers a request for a download with its chunk, as often as the first
parameter for the number asks for, and never more often than the maximum.
-/
namespace Speedtest.Serving

open Download (ChunkStream)
open Service (Endpoint Moment State)

variable {files : Files} {s : Settings} {chunk : Bytes} {coordinate : Geo.Coordinate} {lookup : Geo.Lookup}
  {server : Server}

/-- A request for a download starts a stream of as many chunks as it asks for. -/
theorem response_download {service : Service} {r : Http.Request} (m : Moment) (st : State) (hget : r.method = "GET")
    (hpath : Endpoint.find? service.mount r.target.path = some .garbage) :
    (service.exchange m r st).1.response.status = 200 ∧
      (service.exchange m r st).1.response.body = .chunks (.ofCount service.chunk (Service.chunksAsked service r)) := by
  have hanswers : Endpoint.garbage.answersTo r.method = true := by
    rw [hget]
    rfl
  have hoptions : r.method ≠ "OPTIONS" := by
    rw [hget]
    decide
  obtain ⟨hstatus, hbody⟩ := Service.response_exchange m st hpath hoptions hanswers
  refine ⟨hstatus, hbody.trans ?_⟩
  rw [hget]
  rfl

/-- The chunk of a server is sent exactly as often as the first parameter for the number asks for, at most 1024 times;
whoever reads on finds the end. -/
theorem download_repeats (hsettings : s.problems = [])
    (hbuild : Server.build files s chunk coordinate lookup = .done server) (m : Moment) (st : State) (r : Http.Request)
    (hget : r.method = "GET") (hpath : Endpoint.find? server.service.mount r.target.path = some .garbage) :
    ∃ asked n, (∀ found, Form.Gives r.target.queryBytes "ckSize" found ↔ found = asked) ∧
      (∀ count, Download.Asks s.downloadChunks asked count ↔ count = n) ∧
      n ≤ 1024 ∧ (Download.chunkWord asked (.ofNat s.downloadChunks)).toNat = n ∧
      (server.service.exchange m r st).1.response.status = 200 ∧
      ∃ stream, (server.service.exchange m r st).1.response.body = .chunks stream ∧
        ∀ polls, (stream.polls polls).1 =
          List.replicate (min polls n) (some chunk) ++ List.replicate (polls - n) none := by
  obtain ⟨mount, hservice⟩ := service_of_build hbuild
  have hdefault := Settings.downloadChunks_le hsettings
  have hword : (UInt32.ofNat s.downloadChunks).toNat = s.downloadChunks :=
    UInt32.toNat_ofNat_of_lt' (Nat.lt_of_le_of_lt hdefault (by decide))
  obtain ⟨hstatus, hbody⟩ := response_download m st hget hpath
  rw [hservice] at hstatus hbody ⊢
  refine ⟨Form.first? r.target.queryBytes "ckSize",
    Download.chunkCount (Form.first? r.target.queryBytes "ckSize") s.downloadChunks, fun found => ?_, fun count => ?_,
    ?_, ?_, hstatus, _, hbody, fun polls => ?_⟩
  · rw [Form.gives_iff, eq_comm]
  · rw [Download.asks_iff, eq_comm]
  · exact Download.chunkCount_le _ hdefault
  · rw [Download.toNat_chunkWord, hword]
  · exact ChunkStream.items_polls _ polls

/-- A request for three chunks in a query that writes the name and the number in a roundabout way. -/
def disguisedDownload : Http.Request where
  method := "GET"
  target := ⟨"/backend/garbage.php", some "cksize=5&&ck%53ize=%2B0003&ckSize=900"⟩
  headers := []
  body := .ofBytes []
  peer := none

theorem download_repeats_disguised :
    let s : Settings := { downloadChunks := 9 }
    let chunk : Bytes := [0xC0, 0xDE]
    s.problems = [] ∧ ∃ server,
      Server.build ⟨[], []⟩ s chunk .origin (Service.plain "secret").lookup = .done server ∧
      ∃ stream, (server.service.exchange ⟨.epoch, "record", "drawn", .refused⟩ disguisedDownload
          ⟨.forgetful, .start⟩).1.response.body = .chunks stream ∧
        (stream.polls 5).1 = [some chunk, some chunk, some chunk, none, none] := by
  intro s chunk
  have hsettings : s.problems = [] := by decide
  have hmount : Http.Mount.ofBase? s.urlBase = some .root := by decide +kernel
  obtain ⟨server, hbuild, hroot⟩ : ∃ server,
      Server.build ⟨[], []⟩ s chunk .origin (Service.plain "secret").lookup = .done server ∧
        server.service.mount = .root := by
    rw [Server.build, mountOf, hmount]
    exact ⟨_, rfl, rfl⟩
  have hpath : Endpoint.find? server.service.mount disguisedDownload.target.path = some .garbage := by
    rw [hroot]
    decide +kernel
  obtain ⟨asked, n, hasked, hcount, -, -, -, stream, hbody, hpolls⟩ :=
    download_repeats hsettings hbuild ⟨.epoch, "record", "drawn", .refused⟩ ⟨.forgetful, .start⟩ disguisedDownload
      rfl hpath
  have hgives : Form.Gives disguisedDownload.target.queryBytes "ckSize" (some "+0003") :=
    Form.gives_iff.2 (by decide +kernel)
  have hwrites : Text.WritesCount "+0003".toList 3 :=
    ⟨"0003".toList, .inr rfl, by decide, List.all_eq_true.1 (by decide), by decide⟩
  obtain rfl := (hasked _).1 hgives
  obtain rfl := (hcount _).1 (.count hwrites (by decide))
  exact ⟨hsettings, server, hbuild, stream, hbody, hpolls 5⟩

end Speedtest.Serving
