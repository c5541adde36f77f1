import Speedtest.Service.Basic

/-!
# Uploads and downloads

An upload is thrown away and its bytes are counted as they arrive, up to the place where its source fails. A
download is the chunk so many times over, as the parameter `ckSize` asks.
-/
namespace Speedtest.Service

def upload (r : Http.Request) (st : State) : Handled :=
  let st := st.count .uploaded r.body.received
  match r.body.failure with
  | some _ => st.respond (.bare 400)
  | none =>
    st.respond ((Http.Response.bare 200).withField "connection" (Bytes.ofAscii "keep-alive"))

def chunksAsked (s : Service) (r : Http.Request) : Nat :=
  Download.chunkCount (Form.first? r.target.queryBytes "ckSize") s.defaultChunks

def download (s : Service) (r : Http.Request) (st : State) : Handled :=
  st.respond {
    status := 200
    headers := [Http.Headers.ascii "content-description" "File Transfer",
      Http.Headers.ascii "content-type" "application/octet-stream",
      Http.Headers.ascii "content-disposition" "attachment; filename=random.dat",
      Http.Headers.ascii "content-transfer-encoding" "binary"]
    body := .chunks (.ofCount s.chunk (chunksAsked s r)) }

end Speedtest.Service
