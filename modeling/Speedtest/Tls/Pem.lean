import Speedtest.Text.Scan
import Speedtest.Tls.Base64

/-!
# Sections of a key file

A key file holds sections between a line that begins one and a line that ends it, both with its label. What
stands outside sections is passed over, and so are sections with a label that nobody knows. A line that
begins another section inside one renames it and keeps what was gathered. Reading stops at the first fault, and
whoever wants only the first section of a kind never meets a fault behind it.
-/
namespace Speedtest.Tls.Pem

/-- What is wrong with a file of sections. -/
inductive Fault where
  | badStart
  | noEnd
  | badText
  deriving DecidableEq

/-- A section: its label and the bytes that its text stands for. -/
structure Section where
  label : String
  content : Bytes
  deriving DecidableEq

def labels : List String :=
  ["CERTIFICATE", "PUBLIC KEY", "RSA PRIVATE KEY", "PRIVATE KEY", "EC PRIVATE KEY", "X509 CRL",
    "CERTIFICATE REQUEST", "ECHCONFIG"]

def beginLead : Bytes := Bytes.ofAscii "-----BEGIN "

def endLead : Bytes := Bytes.ofAscii "-----END "

def dashes : Bytes := Bytes.ofAscii "-----"

/-- Whether a byte may stand behind the label of a line that begins a section. -/
def isClosing (b : UInt8) : Bool := b == 0x2D || b == 0x20

/-- The label in what follows the lead of a line that begins a section: it ends at the dashes, of which
there have to be five. -/
def label? (s : Bytes) : Option Bytes :=
  let closing := ((s.reverse.takeWhile isClosing).reverse).dropWhile (· != 0x2D)
  if closing.count 0x2D = 5 then some (s.take (s.length - closing.length)) else none

def endsSection (label line : Bytes) : Bool := Text.startsWith (endLead ++ label ++ dashes) line

/-- The section of a label, if anybody knows the label, and the text gathered for it. -/
def close (label : Bytes) (gathered : List Bytes) : Option (Except Fault Section) :=
  (labels.find? fun known => Bytes.ofAscii known == label).map fun known =>
    match Base64.decode? gathered.reverse.flatten with
    | some content => .ok ⟨known, content⟩
    | none => .error .badText

/-- The sections of lines, or a fault at the end of them, where `current` is the label of the section that
the lines are in and `gathered` its lines in reverse. -/
def readFrom (current : Option Bytes) (gathered : List Bytes) :
    List Bytes → List (Except Fault Section)
  | [] => if current.isSome then [.error .noEnd] else []
  | line :: lines =>
    match Text.dropLead? beginLead line, current with
    | some s, _ =>
      match label? s with
      | some label => readFrom (some label) gathered lines
      | none => [.error .badStart]
    | none, none => readFrom none gathered lines
    | none, some label =>
      if endsSection label line then
        match close label gathered with
        | some (.ok found) => .ok found :: readFrom none [] lines
        | some (.error fault) => [.error fault]
        | none => readFrom none [] lines
      else readFrom (some label) (line :: gathered) lines

/-- The sections of a file, or a fault at the end of them. -/
def read (content : Bytes) : List (Except Fault Section) :=
  readFrom none [] (content.splitOnP fun b => b == 0x0A || b == 0x0D)

def all (content : Bytes) : Except Fault (List Section) := (read content).mapM id

/-- The first section that something is made of. -/
def first? {α : Type} (f : Section → Option α) : List (Except Fault Section) → Except Fault (Option α)
  | [] => .ok none
  | .error fault :: _ => .error fault
  | .ok found :: rest =>
    match f found with
    | some a => .ok (some a)
    | none => first? f rest

end Speedtest.Tls.Pem
