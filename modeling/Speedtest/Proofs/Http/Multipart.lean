import Speedtest.Http.Multipart
import Speedtest.Proofs.Text.Scan
import Speedtest.Proofs.Text.Utf8

/-!
# Bodies in parts as they are written and read

Named texts are written as parts that consist of a field with the name and of the text as it is. They are read back
from the body with their names, as long as no text has a delimiter in it that starts a line: the end of a text is then
the first such delimiter, and what is in front of it is the text, however much of a delimiter it has in it.
-/
namespace Speedtest

/-! ## Character sets -/

/-- A text that does not start with a byte order mark is read back. -/
theorem Text.Charset.decode_encode {s : List Char} (h : s.head? ≠ some (Char.ofNat 0xFEFF)) :
    decode .utf8 (Utf8.encode s) = s := by
  have hfirst {first : Option Char} {w rest : Bytes} (hmark : Utf8.encode s = w)
      (hnext : Utf8.next w = some (first, rest)) : s.head? = first ∧ first.isSome = true := by
    cases s with
    | nil =>
      rw [← hmark] at hnext
      cases hnext
    | cons c s =>
      rw [← hmark, Utf8.encode_cons, Utf8.next_utf8EncodeChar] at hnext
      obtain ⟨rfl, -⟩ := Prod.mk.inj (Option.some.inj hnext)
      exact ⟨rfl, rfl⟩
  unfold decode
  split
  · rename_i hmark
    exact absurd (hfirst hmark rfl).1 h
  · rename_i hmark
    exact absurd (hfirst hmark rfl).2 (by decide)
  · rename_i hmark
    exact absurd (hfirst hmark rfl).2 (by decide)
  · exact Utf8.decodeLenient_encode s

namespace Http

/-! ## Names -/

/-- A byte of a name, which needs no escape between quotes. -/
def IsNameByte (b : UInt8) : Prop := 0x20 < b.toNat ∧ b.toNat < 0x7F ∧ b ≠ 0x22 ∧ b ≠ 0x5C

/-- The characters of a name are visible, and neither quotes nor backslashes. -/
theorem Headers.isNameChar_bounds {c : Char} (h : isNameChar c = true) :
    0x20 < c.toNat ∧ c.toNat < 0x7F ∧ c.toNat ≠ 0x22 ∧ c.toNat ≠ 0x5C := by
  simp only [isNameChar, Text.isAsciiLetter, Text.isAsciiDigit, Bool.or_eq_true, Bool.and_eq_true,
    decide_eq_true_eq, Char.le_def, UInt32.le_iff_toNat_le] at h
  rcases h with ((⟨hlow, hhigh⟩ | ⟨hlow, hhigh⟩) | ⟨hlow, hhigh⟩) | hmem
  · have hlow : 97 ≤ c.toNat := hlow
    have hhigh : c.toNat ≤ 122 := hhigh
    omega
  · have hlow : 65 ≤ c.toNat := hlow
    have hhigh : c.toNat ≤ 90 := hhigh
    omega
  · have hlow : 48 ≤ c.toNat := hlow
    have hhigh : c.toNat ≤ 57 := hhigh
    omega
  · have hsymbols : "!#$%&'*+-.^_`|~".toList.all (fun c =>
        decide (0x20 < c.toNat ∧ c.toNat < 0x7F ∧ c.toNat ≠ 0x22 ∧ c.toNat ≠ 0x5C)) = true := by decide
    exact of_decide_eq_true (List.all_eq_true.1 hsymbols c hmem)

/-- Names of such characters are names of such bytes. -/
theorem isNameByte_of_mem {name : List Char} (h : ∀ c ∈ name, Headers.isNameChar c = true) :
    ∀ b ∈ Text.Utf8.encode name, IsNameByte b := by
  have hascii : ∀ c ∈ name, c.toNat < 0x80 := fun c hc => by
    have hbounds := Headers.isNameChar_bounds (h c hc)
    omega
  rw [Text.Utf8.encode_of_ascii hascii]
  intro b hb
  obtain ⟨c, hc, rfl⟩ := List.mem_map.1 hb
  have hbounds := Headers.isNameChar_bounds (h c hc)
  have hnat : (UInt8.ofNat c.toNat).toNat = c.toNat := by rw [UInt8.toNat_ofNat']; omega
  refine ⟨by omega, by omega, fun hquote => ?_, fun hslash => ?_⟩
  · rw [hquote] at hnat
    exact hbounds.2.2.1 hnat.symm
  · rw [hslash] at hnat
    exact hbounds.2.2.2 hnat.symm

namespace Multipart

/-- What stands in front of a name in the field that tells it. -/
def nameLead : Bytes := Bytes.ofAscii "form-data; name=\""

def nameValue (name : Bytes) : Bytes := nameLead ++ (name ++ [0x22])

theorem readQuotedFrom?_append {name : Bytes} (h : ∀ b ∈ name, IsNameByte b) {done : Bytes}
    (hdone : done.head? ≠ some 0x5C) : readQuotedFrom? done (name ++ [0x22]) = some (done.reverse ++ name) := by
  induction name generalizing done with
  | nil => rw [List.nil_append, readQuotedFrom?, if_neg hdone, List.append_nil]
  | cons b name ih =>
    obtain ⟨-, -, hquote, hslash⟩ := h b List.mem_cons_self
    have hstep : readQuotedFrom? done (b :: (name ++ [0x22])) = readQuotedFrom? (b :: done) (name ++ [0x22]) := by
      rw [readQuotedFrom?]
      exact hquote
    rw [List.cons_append, hstep, ih (fun d hd => h d (List.mem_cons_of_mem b hd)) (by simpa using hslash),
      List.reverse_cons, List.append_assoc]
    rfl

theorem withoutBackslashes_of_name {name : Bytes} (h : ∀ b ∈ name, IsNameByte b) :
    withoutBackslashes name = name := by
  induction name with
  | nil => rfl
  | cons b name ih =>
    obtain ⟨-, -, -, hslash⟩ := h b List.mem_cons_self
    rw [withoutBackslashes, ih fun d hd => h d (List.mem_cons_of_mem b hd)]
    intro s hb
    exact absurd hb hslash

theorem named?_nameValue {name : Bytes} (h : ∀ b ∈ name, IsNameByte b) : named? (nameValue name) = some name := by
  have hcut : Text.cutAround? nameAttribute (nameValue name) =
      some (Bytes.ofAscii "form-data; ", 0x3D :: 0x22 :: (name ++ [0x22])) := rfl
  have hvalue : attribute? (0x3D :: 0x22 :: (name ++ [0x22])) =
      (readQuotedFrom? [] (name ++ [0x22])).map withoutBackslashes := rfl
  rw [named?.eq_def]
  split
  · rename_i hnone
    cases hcut.symm.trans hnone
  · rename_i before after hsome
    obtain ⟨rfl, rfl⟩ := Prod.mk.inj (Option.some.inj (hcut.symm.trans hsome))
    have hquoted : readQuotedFrom? [] (name ++ [0x22]) = some name := readQuotedFrom?_append h (by decide)
    rw [if_pos (by decide), hvalue, hquoted, Option.map_some, withoutBackslashes_of_name h]

def nameLine (name : Bytes) : Bytes := Bytes.ofAscii "Content-Disposition: " ++ nameValue name

theorem visible_of_mem_nameLine {name : Bytes} (h : ∀ b ∈ name, IsNameByte b) {b : UInt8}
    (hb : b ∈ nameLine name) : 0x20 ≤ b.toNat ∧ b.toNat < 0x7F := by
  have hlead : (Bytes.ofAscii "Content-Disposition: " ++ nameLead).all (fun c =>
      decide (0x20 ≤ c.toNat ∧ c.toNat < 0x7F)) = true := by decide
  rw [nameLine, nameValue, ← List.append_assoc] at hb
  rcases List.mem_append.1 hb with hb | hb
  · exact of_decide_eq_true (List.all_eq_true.1 hlead b hb)
  · rcases List.mem_append.1 hb with hb | hb
    · obtain ⟨hlow, hhigh, -⟩ := h b hb
      exact ⟨Nat.le_of_lt hlow, hhigh⟩
    · rw [List.mem_singleton.1 hb]
      decide

/-- The line that tells a name is read back. -/
theorem readLine?_nameLine {name : Bytes} (h : ∀ b ∈ name, IsNameByte b) :
    FieldBlock.readLine? (nameLine name) = some ("content-disposition", nameValue name) := by
  have hcut : Text.cutAt? (· == 0x3A) (nameLine name) =
      some (Bytes.ofAscii "Content-Disposition", 0x20 :: nameValue name) := rfl
  have htrim : Text.trimBy FieldBlock.isBlank (0x20 :: nameValue name) = nameValue name := by
    have hdrop : (0x20 :: nameValue name).dropWhile FieldBlock.isBlank = nameValue name := rfl
    have hback : (nameValue name).reverse = 0x22 :: (nameLead ++ name).reverse := by
      rw [nameValue, ← List.append_assoc, List.reverse_append]
      rfl
    rw [Text.trimBy, hdrop, Text.dropBack, hback]
    exact List.reverse_eq_iff.2 hback.symm
  have hvalue : (nameValue name).all Headers.isValueByte = true := by
    rw [List.all_eq_true]
    intro b hb
    obtain ⟨hlow, hhigh⟩ := visible_of_mem_nameLine h (List.mem_append_right _ hb)
    have hne : b ≠ 0x7F := by
      rintro rfl
      exact absurd hhigh (by decide)
    simp only [Headers.isValueByte, Bool.or_eq_true, Bool.and_eq_true, decide_eq_true_eq, bne_iff_ne]
    exact .inl ⟨UInt8.le_iff_toNat_le.2 hlow, hne⟩
  rw [FieldBlock.readLine?, hcut]
  dsimp only
  rw [htrim, Headers.field?, hvalue]
  rfl

/-- The block of a part has one field, which tells its name. -/
theorem read?_nameLine {name : Bytes} (h : ∀ b ∈ name, IsNameByte b) :
    FieldBlock.read? (nameLine name ++ lineEnd ++ lineEnd) = some [("content-disposition", nameValue name)] := by
  have hfeed : ∀ b ∈ nameLine name ++ [0x0D], (b == 0x0A) = false := by
    intro b hb
    rw [beq_eq_false_iff_ne]
    rintro rfl
    rcases List.mem_append.1 hb with hb | hb
    · exact absurd (visible_of_mem_nameLine h hb).1 (by decide)
    · exact absurd hb (by decide)
  have hcut : Text.cutAt? (· == 0x0A) (nameLine name ++ lineEnd ++ lineEnd) =
      some (nameLine name ++ [0x0D], [0x0D, 0x0A]) := by
    have hsplit : nameLine name ++ lineEnd ++ lineEnd = nameLine name ++ [0x0D] ++ 0x0A :: [0x0D, 0x0A] := by
      simp [lineEnd]
    rw [hsplit]
    exact Text.cutAt?_append hfeed rfl
  have hline : FieldBlock.withoutReturn (nameLine name ++ [0x0D]) = nameLine name := by
    rw [FieldBlock.withoutReturn, List.getLast?_concat, if_pos rfl, List.dropLast_concat]
  have hsome : (nameLine name).isEmpty = false := rfl
  rw [FieldBlock.read?, FieldBlock.maxFields, FieldBlock.readFrom?, hcut]
  dsimp only
  rw [hline, hsome, if_neg Bool.false_ne_true, readLine?_nameLine h]
  rfl

/-! ## Parts -/

/-- What is written behind a delimiter: the parts of named texts, each up to the next delimiter, and the end. -/
def writeFrom (boundary : String) : Form.Pairs → Bytes
  | [] => [0x2D, 0x2D] ++ lineEnd
  | (name, text) :: rest =>
    lineEnd ++ (nameLine (Text.Utf8.encode name.toList) ++ (lineEnd ++ lineEnd ++
      (Text.Utf8.encode text.toList ++ (lineEnd ++ delimiter boundary ++ writeFrom boundary rest))))

def write (boundary : String) (pairs : Form.Pairs) : Bytes := delimiter boundary ++ writeFrom boundary pairs

/-- A boundary has no line ends in it. -/
def IsBoundary (boundary : String) : Prop := ∀ c ∈ boundary.toList, 0x1F < c.toNat

theorem readQuoted?_chars {s value rest : List Char} (h : MediaType.readQuoted? s = some (value, rest)) :
    ∀ c ∈ value, 0x1F < c.toNat := by
  unfold MediaType.readQuoted? at h
  split at h
  · cases h
  · split at h
    · dsimp only at h
      split at h
      · rename_i hquotable
        obtain ⟨rfl, -⟩ := Prod.mk.inj (Option.some.inj h)
        intro c hc
        have hchar := List.all_eq_true.1 hquotable c hc
        rw [MediaType.isQuotable, Bool.and_eq_true, decide_eq_true_eq] at hchar
        exact hchar.1
      · cases h
    · cases h

theorem readValue?_chars {s value rest : List Char} (h : MediaType.readValue? s = some (value, rest)) :
    ∀ c ∈ value, 0x1F < c.toNat := by
  unfold MediaType.readValue? at h
  split at h
  · obtain ⟨⟨quoted, after⟩, hquoted, h⟩ := Option.bind_eq_some_iff.1 h
    obtain ⟨behind, -, h⟩ := Option.bind_eq_some_iff.1 h
    obtain ⟨rfl, -⟩ := Prod.mk.inj (Option.some.inj h)
    exact readQuoted?_chars hquoted
  · split at h
    · obtain ⟨rfl, -⟩ := Prod.mk.inj (Option.some.inj h)
      exact fun c hc => nomatch hc
    · exact nomatch h
    · obtain ⟨behind, -, h⟩ := Option.map_eq_some_iff.1 h
      obtain ⟨rfl, -⟩ := Prod.mk.inj h
      intro c hc
      have hname := Headers.isNameChar_bounds (List.all_eq_true.1 List.all_takeWhile c hc)
      omega

/-- No character in the value of a parameter lies below the blank. -/
theorem readParameters?_chars {s : List Char} {parameters : List (String × String)}
    (h : MediaType.readParameters? s = some parameters) :
    ∀ p ∈ parameters, ∀ c ∈ p.2.toList, 0x1F < c.toNat := by
  fun_induction MediaType.readParameters? s generalizing parameters with
  | case1 =>
    obtain rfl := Option.some.inj h
    exact fun p hp => nomatch hp
  | case2 _ ih => exact ih h
  | case3 => exact nomatch h
  | case4 => exact nomatch h
  | case5 _ _ _ _ _ _ _ _ hvalue ih =>
    obtain ⟨others, hothers, rfl⟩ := Option.map_eq_some_iff.1 h
    intro p hp
    rcases List.mem_cons.1 hp with rfl | hp
    · rw [String.toList_ofList]
      exact readValue?_chars hvalue
    · exact ih hothers p hp

theorem parameters_ofText? {text : String} {m : MediaType} (h : MediaType.ofText? text = some m) :
    ∀ p ∈ m.parameters, ∀ c ∈ p.2.toList, 0x1F < c.toNat := by
  unfold MediaType.ofText? at h
  dsimp only at h
  split at h
  · split at h
    · obtain rfl := Option.some.inj h
      exact fun p hp => nomatch hp
    · obtain ⟨parameters, hparameters, rfl⟩ := Option.map_eq_some_iff.1 h
      exact readParameters?_chars hparameters
    · exact nomatch h
  · exact nomatch h

/-- Whatever boundary a content type names, no line ends are in it. -/
theorem isBoundary_of_boundary? {contentType boundary : String} (h : boundary? contentType = some boundary) :
    IsBoundary boundary := by
  obtain ⟨m, hm, h⟩ := Option.bind_eq_some_iff.1 h
  split at h
  · obtain ⟨front, back, hsplit, -⟩ := List.lookup_eq_some_iff.1 h
    have hmem : ("boundary", boundary) ∈ m.parameters := by
      rw [hsplit]
      exact List.mem_append_right front List.mem_cons_self
    exact parameters_ofText? hm _ hmem
  · exact nomatch h

/-- A named text that can be written as a part: its name is a token, and the text neither starts with a byte order mark
nor has a delimiter in it that starts a line. -/
structure Writable (boundary : String) (p : String × String) : Prop where
  name : ∀ c ∈ p.1.toList, Headers.isNameChar c = true
  unmarked : p.2.toList.head? ≠ some (Char.ofNat 0xFEFF)
  apart : ¬ "\r\n--".toList ++ boundary.toList <:+: p.2.toList

def partOf (p : String × String) : Part := ⟨some p.1, none, Text.Utf8.encode p.2.toList⟩

theorem text_partOf {p : String × String} (h : p.2.toList.head? ≠ some (Char.ofNat 0xFEFF)) :
    (partOf p).text = p.2 := by
  have hdecode := Text.Charset.decode_encode h
  rw [Part.text, partOf]
  dsimp only
  rw [Option.bind_none, Option.getD_none, hdecode, String.ofList_toList]

theorem partName?_nameValue {name : String} (h : ∀ c ∈ name.toList, Headers.isNameChar c = true) :
    partName? [("content-disposition", nameValue (Text.Utf8.encode name.toList))] = some name := by
  have hfirst : Headers.first? [("content-disposition", nameValue (Text.Utf8.encode name.toList))]
      "content-disposition" = some (nameValue (Text.Utf8.encode name.toList)) := rfl
  rw [partName?, hfirst, Option.bind_some, named?_nameValue (isNameByte_of_mem h), Option.bind_some,
    Text.Utf8.decode?_encode, Option.map_some, String.ofList_toList]

/-- A line end and a delimiter, in characters. -/
theorem encode_delimiter (boundary : String) :
    Text.Utf8.encode ("\r\n--".toList ++ boundary.toList) = lineEnd ++ delimiter boundary := by
  rw [Text.Utf8.encode_append]
  rfl

/-- A line starts nowhere in a delimiter. -/
theorem not_mem_delimiter {boundary : String} (h : IsBoundary boundary) :
    (0x0D : UInt8) ∉ (0x0A : UInt8) :: delimiter boundary := by
  intro hmem
  have hboundary : (0x0D : UInt8) ∈ Text.Utf8.encode boundary.toList := by
    simpa [delimiter] using hmem
  obtain ⟨front, back, hsplit⟩ := List.append_of_mem hboundary
  have hinfix : Text.Utf8.encode ['\r'] <:+: Text.Utf8.encode boundary.toList :=
    ⟨front, back, by rw [hsplit, List.append_assoc]; rfl⟩
  have hreturn := Text.Utf8.infix_of_encode_infix (by decide) hinfix
  exact absurd (h '\r' (hreturn.mem List.mem_cons_self)) (by decide)

/-- The first part that is written is read back, with the others left. -/
theorem readPart_writeFrom {boundary : String} (hboundary : IsBoundary boundary) {p : String × String}
    (h : Writable boundary p) (rest : Form.Pairs) :
    readPart boundary (writeFrom boundary (p :: rest)) = .ok (partOf p, writeFrom boundary rest) := by
  have hname := isNameByte_of_mem h.name
  have hblock : Text.cutAround? (lineEnd ++ lineEnd)
      (nameLine (Text.Utf8.encode p.1.toList) ++ (lineEnd ++ lineEnd ++
        (Text.Utf8.encode p.2.toList ++ (lineEnd ++ delimiter boundary ++ writeFrom boundary rest)))) =
      some (nameLine (Text.Utf8.encode p.1.toList),
        Text.Utf8.encode p.2.toList ++ (lineEnd ++ delimiter boundary ++ writeFrom boundary rest)) := by
    refine Text.cutAround?_of_not_mem fun hmem => ?_
    exact absurd (visible_of_mem_nameLine hname hmem).1 (by decide)
  have hcontent : Text.cutAround? (lineEnd ++ delimiter boundary)
      (Text.Utf8.encode p.2.toList ++ (lineEnd ++ delimiter boundary ++ writeFrom boundary rest)) =
      some (Text.Utf8.encode p.2.toList, writeFrom boundary rest) := by
    refine Text.cutAround?_of_not_infix (not_mem_delimiter hboundary) fun hinfix => ?_
    have hencoded : Text.Utf8.encode ("\r\n--".toList ++ boundary.toList) <:+: Text.Utf8.encode p.2.toList := by
      rw [encode_delimiter]
      exact hinfix
    exact h.apart (Text.Utf8.infix_of_encode_infix (by decide) hencoded)
  have hstart (s : Bytes) : Text.dropLead? lineEnd ((lineEnd ++ s).dropWhile FieldBlock.isBlank) = some s :=
    Text.dropLead?_append lineEnd s
  obtain ⟨name, text⟩ := p
  rw [writeFrom, readPart, hstart]
  dsimp only at hblock hcontent ⊢
  rw [hblock]
  dsimp only
  rw [read?_nameLine hname]
  dsimp only
  rw [hcontent]
  dsimp only
  rw [partName?_nameValue h.name]
  rfl

/-- All parts that are written are read back. -/
theorem readParts_writeFrom {boundary : String} (hboundary : IsBoundary boundary) {pairs : Form.Pairs}
    (h : ∀ p ∈ pairs, Writable boundary p) :
    readParts boundary (writeFrom boundary pairs) = .ok (pairs.map partOf) := by
  induction pairs with
  | nil => rw [writeFrom, readParts.eq_def]; rfl
  | cons p pairs ih =>
    have hpart := readPart_writeFrom hboundary (h p List.mem_cons_self) pairs
    have hrest := ih fun q hq => h q (List.mem_cons_of_mem p hq)
    rw [readParts.eq_def]
    obtain ⟨name, text⟩ := p
    split
    · rename_i hend
      cases hend
    · split
      · rename_i fault herror
        cases hpart.symm.trans herror
      · rename_i part rest hread
        obtain ⟨rfl, rfl⟩ := Prod.mk.inj (Except.ok.inj (hpart.symm.trans hread))
        rw [hrest]
        rfl

/-- The parts are read back from a body that they are written to. -/
theorem read_write {boundary : String} (hboundary : IsBoundary boundary) {pairs : Form.Pairs}
    (h : ∀ p ∈ pairs, Writable boundary p) : read boundary (write boundary pairs) = .ok (pairs.map partOf) := by
  have hcut : Text.cutAround? (delimiter boundary) (write boundary pairs) =
      some ([], writeFrom boundary pairs) :=
    Text.cutAround?_append fun t ht hne => absurd (List.suffix_nil.1 ht) hne
  rw [read, hcut]
  exact readParts_writeFrom hboundary h

end Multipart
end Http
end Speedtest
