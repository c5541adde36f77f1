import Speedtest.Files
import Speedtest.Text.Quoted
import Speedtest.Tls.Certificate
import Speedtest.Tls.Pem
import Speedtest.Tls.PrivateKey

/-!
# What a server proves itself with

A server has a chain of certificates and the private key of the first one. Both are read from files, and each
thing that may be wrong with them is told apart: a file that is not there, one that cannot be read, one without
what it should hold, and certificate and key that do not make an identity.
-/
namespace Speedtest.Tls

/-- The protocols that a server offers when a connection starts, by whether it speaks the second version. -/
def protocols (http2 : Bool) : List String :=
  if http2 then ["h2", "http/1.1"] else ["http/1.1"]

/-- Why there is no identity. -/
inductive Fault where
  | notFound (kind name : String)
  | unreadable (name : String)
  | noCertificates (name : String)
  | noPrivateKey (name : String)
  | unusable
  deriving DecidableEq

def Fault.message : Fault → String
  | .notFound kind name => kind ++ " file not found: " ++ Text.quoted name
  | .unreadable name => "failed to read " ++ Text.quoted name
  | .noCertificates name => "no certificates found in " ++ Text.quoted name
  | .noPrivateKey name => "no private key found in " ++ Text.quoted name
  | .unusable => "invalid TLS configuration"

/-- A chain of certificates and the private key of the first one. -/
structure Identity where
  chain : List Bytes
  envelope : PrivateKey.Envelope
  key : Bytes
  deriving DecidableEq

namespace Identity

/-- Whether the first certificate vouches for the public key that belongs to the private key. -/
def matched (i : Identity) : Bool :=
  match i.chain.head?.bind Certificate.publicKey?, PrivateKey.publicKey? i.envelope i.key with
  | some told, some own => told == own
  | _, _ => false

def certificates (files : Files) (name : String) : Except Fault (List Bytes) :=
  match files.read name with
  | .error _ => .error (.unreadable name)
  | .ok content =>
    match Pem.all content with
    | .error _ => .error (.unreadable name)
    | .ok sections =>
      match (sections.filter (·.label == "CERTIFICATE")).map (·.content) with
      | [] => .error (.noCertificates name)
      | chain => .ok chain

/-- The first private key in a file. -/
def privateKey (files : Files) (name : String) : Except Fault (PrivateKey.Envelope × Bytes) :=
  match files.read name with
  | .error _ => .error (.unreadable name)
  | .ok content =>
    let key (s : Pem.Section) := (PrivateKey.Envelope.ofLabel? s.label).map fun e => (e, s.content)
    match Pem.first? key (Pem.read content) with
    | .error _ => .error (.unreadable name)
    | .ok none => .error (.noPrivateKey name)
    | .ok (some found) => .ok found

def load (files : Files) (certificateName keyName : String) : Except Fault Identity :=
  if !files.has certificateName then .error (.notFound "Certificate" certificateName)
  else if !files.has keyName then .error (.notFound "Private key" keyName)
  else do
    let chain ← certificates files certificateName
    let (envelope, key) ← privateKey files keyName
    let identity : Identity := ⟨chain, envelope, key⟩
    if identity.matched then .ok identity else .error .unusable

end Identity
end Speedtest.Tls
