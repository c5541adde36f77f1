import Speedtest.Address.Ip
import Speedtest.Download.Chunk
import Speedtest.Http.Body
import Speedtest.Http.Target
import Speedtest.Json.Writer

/-!
# Requests and responses

A request comes with the address of the connection that it came over, as far as that is known. The body of a
response is a byte string, or a download, which is never written out as one string.
-/
namespace Speedtest.Http

/-- A request. -/
structure Request where
  method : String
  target : Target
  headers : Headers
  body : Body
  peer : Option Address.Endpoint
  deriving DecidableEq

/-- The body of a response. -/
inductive Payload where
  | bytes (b : Bytes)
  | chunks (s : Download.ChunkStream)
  deriving DecidableEq

namespace Payload

def empty : Payload := .bytes []

def length : Payload → Nat
  | .bytes b => b.length
  | .chunks s => s.totalLength

/-- The number of bytes, as far as it is announced: that of a download is not. -/
def announced? : Payload → Option Nat
  | .bytes b => some b.length
  | .chunks _ => none

end Payload

/-- A response. -/
structure Response where
  status : Nat
  headers : Headers
  body : Payload
  deriving DecidableEq

namespace Response

def bare (status : Nat) : Response := ⟨status, [], .empty⟩

def text (status : Nat) (content : String) : Response :=
  ⟨status, [Headers.ascii "content-type" "text/plain; charset=utf-8"],
    .bytes (Text.Utf8.encode content.toList)⟩

def json (doc : Json) : Response :=
  ⟨200, [Headers.ascii "content-type" "application/json"], .bytes doc.write⟩

def succeeded (r : Response) : Bool := 200 ≤ r.status && r.status < 300

def withField (r : Response) (name : String) (value : Bytes) : Response :=
  { r with headers := r.headers.set name value }

/-- The response with the length of its body told, when it is known. -/
def withLength (r : Response) : Response :=
  match r.body.announced? with
  | some n =>
    r.withField "content-length" ((Text.decimal n).map fun c => UInt8.ofNat c.toNat)
  | none => r

/-- The response without its body. -/
def withoutBody (r : Response) : Response := { r with body := .empty }

@[simp] theorem status_withField (r : Response) (name : String) (value : Bytes) :
    (r.withField name value).status = r.status := rfl

@[simp] theorem body_withField (r : Response) (name : String) (value : Bytes) :
    (r.withField name value).body = r.body := rfl

@[simp] theorem status_withLength (r : Response) : r.withLength.status = r.status := by
  unfold withLength
  split <;> rfl

@[simp] theorem body_withLength (r : Response) : r.withLength.body = r.body := by
  unfold withLength
  split <;> rfl

@[simp] theorem status_withoutBody (r : Response) : r.withoutBody.status = r.status := rfl

end Response
end Speedtest.Http
