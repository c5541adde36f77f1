import Speedtest.Text.Scan
import Speedtest.Tls.Der

/-!
# Certificates

Of a certificate a server needs the public key that it vouches for. The certificate has to be well formed up
to there and behind it: of the third version, signed in the way that it says itself, and without a critical
extension that nobody knows.
-/
namespace Speedtest.Tls.Certificate

/-- An extension: the name of its kind, whether it is critical, and its value. -/
structure Extension where
  kind : Bytes
  critical : Bool
  value : Bytes
  deriving DecidableEq

def truth? : Option Bytes → Option Bool
  | none => some false
  | some [0x00] => some false
  | some [0xFF] => some true
  | _ => none

def extension? (s : Bytes) : Option Extension := do
  let (kind, s) ← Der.take? Der.objectName s
  let (critical, s) ← Der.optional? Der.boolean s
  let value ← Der.only? Der.octetString s
  return ⟨kind, ← truth? critical, value⟩

def standardLead : Bytes := [0x55, 0x1D]

def keyUsage : UInt8 := 15

def knownNumbers : List UInt8 := [keyUsage, 17, 19, 30, 31, 37]

def Extension.number? (e : Extension) : Option UInt8 :=
  match Text.dropLead? standardLead e.kind with
  | some [n] => if n ∈ knownNumbers then some n else none
  | _ => none

/-- Whether an extension can be accepted: the value of a known one is well formed, and one that is not known
is not critical. -/
def Extension.acceptable (e : Extension) : Bool :=
  match e.number? with
  | some n => n == keyUsage || (Der.only? Der.sequence e.value).isSome
  | none => !e.critical

/-- Whether extensions can be accepted, each known one at most once. -/
def acceptable (extensions : List Extension) : Bool :=
  extensions.all Extension.acceptable && (extensions.filterMap Extension.number?).Nodup

/-- The extensions of what follows the public key. -/
def extensions? (s : Bytes) : Option (List Extension) :=
  if s.isEmpty then some []
  else do
    let list ← (Der.only? (Der.numbered 3) s).bind (Der.only? Der.sequence)
    (← Der.many? Der.sequence list.length list).mapM extension?

/-- The version of a certificate that may have extensions. -/
def thirdVersion : Bytes := [0x02, 0x01, 0x02]

/-- The public key of a certificate, with the name of its kind. -/
def publicKey? (certificate : Bytes) : Option Bytes := do
  let (body, s) ← (Der.only? Der.sequence certificate).bind (Der.take? Der.sequence)
  let (algorithm, s) ← Der.take? Der.sequence s
  let _ ← (Der.only? Der.bitString s).bind Der.wholeBytes?
  let (version, s) ← Der.take? (Der.numbered 0) body
  let (_, s) ← Der.take? Der.integer s
  let (told, s) ← Der.take? Der.sequence s
  let (_, s) ← Der.take? Der.sequence s
  let (_, s) ← Der.take? Der.sequence s
  let (_, s) ← Der.take? Der.sequence s
  let (key, s) ← Der.take? Der.sequence s
  let extensions ← extensions? s
  if version = thirdVersion ∧ told = algorithm ∧ acceptable extensions then some key else none

end Speedtest.Tls.Certificate
