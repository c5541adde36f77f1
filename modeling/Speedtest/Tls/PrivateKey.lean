import Speedtest.Tls.Der

/-!
# Private keys

A private key carries the public key that belongs to it, and a certificate fits the key when it vouches for
exactly that public key. Keys come in an envelope of their own for each kind, or in one that names the kind. The
kinds are RSA with 2048 to 4096 bits and two elliptic curves; a key of another kind is of no use here. That
the parts of a key on a curve belong together is taken for granted.
-/
namespace Speedtest.Tls.PrivateKey

/-- The envelopes of keys. -/
inductive Envelope where
  | named
  | rsa
  | curve
  deriving DecidableEq

def Envelope.ofLabel? : String → Option Envelope
  | "PRIVATE KEY" => some .named
  | "RSA PRIVATE KEY" => some .rsa
  | "EC PRIVATE KEY" => some .curve
  | _ => none

/-- An elliptic curve: its name, and the length of a coordinate. -/
structure Curve where
  name : Bytes
  width : Nat
  deriving DecidableEq

namespace Curve

def p256 : Curve := ⟨[0x2A, 0x86, 0x48, 0xCE, 0x3D, 0x03, 0x01, 0x07], 32⟩

def p384 : Curve := ⟨[0x2B, 0x81, 0x04, 0x00, 0x22], 48⟩

def all : List Curve := [p256, p384]

/-- The name of the kind of keys on curves. -/
def kindName : Bytes := [0x2A, 0x86, 0x48, 0xCE, 0x3D, 0x02, 0x01]

/-- The kind of the keys on a curve. -/
def kind (c : Curve) : Bytes :=
  Der.write Der.objectName kindName ++ Der.write Der.objectName c.name

end Curve

/-- The kind of RSA keys. -/
def rsaKind : Bytes :=
  Der.write Der.objectName [0x2A, 0x86, 0x48, 0x86, 0xF7, 0x0D, 0x01, 0x01, 0x01] ++ [0x05, 0x00]

/-- A public key with its kind, as a certificate has it. -/
def publicKey (kind key : Bytes) : Bytes :=
  Der.write Der.sequence kind ++ Der.write Der.bitString (0 :: key)

/-- A point of a curve, without compression. -/
def isPoint (c : Curve) (b : Bytes) : Bool := b.length == 1 + 2 * c.width && b.head? == some 0x04

def onCurve? (c : Curve) (key : Bytes) : Option Bytes := do
  let s ← Der.only? Der.sequence key
  let (version, s) ← Der.take? Der.integer s
  let (scalar, s) ← Der.take? Der.octetString s
  let (name, s) ← Der.optional? (Der.numbered 0) s
  let point ← ((Der.only? (Der.numbered 1) s).bind (Der.only? Der.bitString)).bind Der.wholeBytes?
  if version = [1] ∧ scalar.length = c.width ∧ isPoint c point ∧
      (name = none ∨ name = some (Der.write Der.objectName c.name)) then
    some (publicKey c.kind point)
  else none

def areRsaNumbers : List Nat → Bool
  | [0, n, e, d, p, q, dp, dq, inverse] =>
    Nat.pow 2 2047 ≤ n && n < Nat.pow 2 4096 && n == p * q && p % 2 == 1 && q % 2 == 1 &&
      65537 ≤ e && e < Nat.pow 2 33 && e % 2 == 1 && d < n && d % 2 == 1 &&
      dp < p && dp % 2 == 1 && dq < q && dq % 2 == 1 && inverse < p && inverse * q % p == 1
  | _ => false

def rsa? (key : Bytes) : Option Bytes := do
  let s ← Der.only? Der.sequence key
  let parts ← Der.many? Der.integer s.length s
  let numbers ← parts.mapM Der.natural?
  match parts with
  | _ :: n :: e :: _ =>
    if areRsaNumbers numbers then
      some (publicKey rsaKind
        (Der.write Der.sequence (Der.write Der.integer n ++ Der.write Der.integer e)))
    else none
  | _ => none

/-- The kind and the key in the envelope that names the kind. -/
def unwrap? (key : Bytes) : Option (Bytes × Bytes) := do
  let s ← Der.only? Der.sequence key
  let (version, s) ← Der.take? Der.integer s
  let (kind, s) ← Der.take? Der.sequence s
  let (inner, s) ← Der.take? Der.octetString s
  let (_, s) ← Der.optional? (Der.numbered 0) s
  if version = [0] ∧ s.isEmpty then some (kind, inner) else none

/-- The public key of a key of a kind. -/
def ofKind? (kind key : Bytes) : Option Bytes :=
  if kind = rsaKind then rsa? key
  else (Curve.all.find? fun c => c.kind == kind).bind fun c => onCurve? c key

def publicKey? : Envelope → Bytes → Option Bytes
  | .named, key => (unwrap? key).bind fun (kind, inner) => ofKind? kind inner
  | .rsa, key => rsa? key
  | .curve, key => Curve.all.findSome? fun c => onCurve? c key

end Speedtest.Tls.PrivateKey
