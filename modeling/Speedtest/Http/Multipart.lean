import Speedtest.Form
import Speedtest.Http.FieldBlock
import Speedtest.Http.MediaType
import Speedtest.Text.Charset
import Speedtest.Text.Quoted

/-!
# Bodies in parts

A form may be sent in parts. A delimiter, which is two hyphens and the boundary, opens each part and, with
two more hyphens, closes the last one. A part has a block of header fields, of which one tells its name, and
its content reaches up to the next delimiter that starts a line.
-/
namespace Speedtest.Http.Multipart

/-- Why bytes are no body in parts. -/
inductive Fault where
  | incomplete
  | badFields
  | incompletePart (name : Option String)
  deriving DecidableEq

def Fault.message : Fault → String
  | .incomplete => "incomplete multipart stream"
  | .badFields => "failed to read headers"
  | .incompletePart name =>
    "field " ++ Text.quoted (name.getD "<unknown>") ++ " received with incomplete data"

/-- A part: its name, if it has one, the label of its character set, and its content. -/
structure Part where
  name : Option String
  charset : Option String
  content : Bytes
  deriving DecidableEq

def Part.text (p : Part) : String :=
  let charset := (p.charset.bind Text.Charset.ofLabel?).getD .utf8
  String.ofList (charset.decode p.content)

def lineEnd : Bytes := [0x0D, 0x0A]

def delimiter (boundary : String) : Bytes :=
  [0x2D, 0x2D] ++ Text.Utf8.encode boundary.toList

/-- The text between quotes whose opening one is behind us, where `done` has been read already, in reverse.
A quote behind a backslash does not close it. -/
def readQuotedFrom? (done : Bytes) : Bytes → Option Bytes
  | [] => none
  | 0x22 :: s => if done.head? = some 0x5C then readQuotedFrom? (0x22 :: done) s else some done.reverse
  | b :: s => readQuotedFrom? (b :: done) s

/-- Bytes without the backslashes in front of quotes. -/
def withoutBackslashes : Bytes → Bytes
  | 0x5C :: 0x22 :: s => 0x22 :: withoutBackslashes s
  | b :: s => b :: withoutBackslashes s
  | [] => []

def isBlank (b : UInt8) : Bool := b == 0x20 || b == 0x09 || b == 0x0A || b == 0x0C || b == 0x0D

/-- The value of an attribute, from what stands behind its name. -/
def attribute? (s : Bytes) : Option Bytes :=
  match s.dropWhile isBlank with
  | 0x3D :: value =>
    match value.dropWhile isBlank with
    | 0x22 :: quoted => (readQuotedFrom? [] quoted).map withoutBackslashes
    | plain => some (plain.takeWhile fun b => b != 0x3B && b != 0x20)
  | _ => none

def nameAttribute : Bytes := Bytes.ofAscii "name"

/-- The value of the attribute that names a part. It starts a word. -/
def named? (s : Bytes) : Option Bytes :=
  match _h : Text.cutAround? nameAttribute s with
  | none => none
  | some (before, after) =>
    if before.getLast?.all fun b => isBlank b || b == 0x3B then attribute? after
    else named? after
termination_by s.length
decreasing_by
  have := congrArg List.length (Text.cutAround?_eq_some _h)
  simp [nameAttribute, Bytes.ofAscii] at this
  omega

def partName? (fields : Headers) : Option String :=
  ((fields.first? "content-disposition").bind named?).bind fun name =>
    (Text.Utf8.decode? name).map String.ofList

/-- The label of a part's character set from its fields. -/
def partCharset? (fields : Headers) : Option String :=
  ((fields.text? "content-type").bind MediaType.ofText?).bind (·.parameter? "charset")

/-- The part whose fields and content follow a delimiter, and what follows the next delimiter. -/
def readPart (boundary : String) (s : Bytes) : Except Fault (Part × Bytes) :=
  match Text.dropLead? lineEnd (s.dropWhile FieldBlock.isBlank) with
  | none => .error .incomplete
  | some s =>
    match Text.cutAround? (lineEnd ++ lineEnd) s with
    | none => .error .incomplete
    | some (block, s) =>
      match FieldBlock.read? (block ++ lineEnd ++ lineEnd) with
      | none => .error .badFields
      | some fields =>
        match Text.cutAround? (lineEnd ++ delimiter boundary) s with
        | none => .error (.incompletePart (partName? fields))
        | some (content, rest) => .ok (⟨partName? fields, partCharset? fields, content⟩, rest)

/-- A part takes bytes away, so reading the parts comes to an end. -/
theorem readPart_length {boundary : String} {s rest : Bytes} {p : Part}
    (h : readPart boundary s = .ok (p, rest)) : rest.length < s.length := by
  have hdrop := (List.dropWhile_suffix (p := FieldBlock.isBlank) (l := s)).length_le
  unfold readPart at h
  split at h
  · simp at h
  · rename_i s1 hlead
    have h1 := congrArg List.length (Text.dropLead?_eq_some_iff.1 hlead)
    split at h
    · simp at h
    · rename_i block s2 hblock
      have h2 := congrArg List.length (Text.cutAround?_eq_some hblock)
      split at h
      · simp at h
      · split at h
        · simp at h
        · rename_i content s3 hcontent
          have h3 := congrArg List.length (Text.cutAround?_eq_some hcontent)
          obtain ⟨-, rfl⟩ := Prod.mk.inj (Except.ok.inj h)
          simp [lineEnd] at h1 h2 h3
          omega

def readParts (boundary : String) (s : Bytes) : Except Fault (List Part) :=
  match s with
  | 0x2D :: 0x2D :: _ => .ok []
  | s =>
    match _h : readPart boundary s with
    | .error fault => .error fault
    | .ok (part, rest) => (readParts boundary rest).map (part :: ·)
termination_by s.length
decreasing_by exact readPart_length _h

/-- The parts of a body. Whatever stands in front of the first delimiter is passed over. -/
def read (boundary : String) (s : Bytes) : Except Fault (List Part) :=
  match Text.cutAround? (delimiter boundary) s with
  | some (_, rest) => readParts boundary rest
  | none => .error .incomplete

def boundary? (contentType : String) : Option String :=
  (MediaType.ofText? contentType).bind fun m =>
    if m.type = "multipart" ∧ m.subtype = "form-data" then m.parameter? "boundary" else none

/-- The named texts of parts; a part without a name is passed over, and the first of a name counts. -/
def collect (known : Form.Pairs) (parts : List Part) : Form.Pairs :=
  (parts.filterMap fun p => p.name.map fun name => (name, p.text)).foldl Form.keepFirst known

end Speedtest.Http.Multipart
