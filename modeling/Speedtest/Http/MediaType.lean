import Speedtest.Http.Headers
import Speedtest.Text.Scan

/-!
# Media types

A media type is a type and a subtype with a slash between them, and parameters behind semicolons. A
parameter's value is a token, or any text between quotes. Names are compared without regard to case.
-/
namespace Speedtest.Http

/-- A media type; the names are in lower case. -/
structure MediaType where
  type : String
  subtype : String
  parameters : List (String × String)
  deriving DecidableEq

namespace MediaType

/-- A character that may stand between quotes. -/
def isQuotable (c : Char) : Bool := 31 < c.toNat && c.toNat != 127

def lower (s : List Char) : String := String.ofList (s.map Text.asciiLower)

/-- The value of a parameter whose opening quote is behind us, and the text behind its closing quote. A
quote right at the start does not close it. -/
def readQuoted? : List Char → Option (List Char × List Char)
  | [] => none
  | c :: s =>
    let value := s.takeWhile (· != '"')
    match s.dropWhile (· != '"') with
    | _ :: rest => if (c :: value).all isQuotable then some (c :: value, rest) else none
    | [] => none

/-- The text behind the semicolon that ends a parameter, or nothing at the end. -/
def nextParameter? : List Char → Option (List Char)
  | [] => some []
  | ';' :: s => some s
  | _ => none

/-- The value of a parameter and the text behind its semicolon. -/
def readValue? : List Char → Option (List Char × List Char)
  | '"' :: s => do
    let (value, rest) ← readQuoted? s
    return (value, ← nextParameter? (rest.dropWhile (· == ' ')))
  | s =>
    match s.takeWhile Headers.isNameChar, s.dropWhile Headers.isNameChar with
    | [], [] => some ([], [])
    | [], _ :: _ => none
    | value, rest => (nextParameter? rest).map fun rest => (value, rest)

/-- The name of a parameter and the text behind its equals sign. -/
def readName? (s : List Char) : Option (List Char × List Char) :=
  match s.takeWhile Headers.isNameChar, s.dropWhile Headers.isNameChar with
  | c :: name, '=' :: rest => some (c :: name, rest)
  | _, _ => none

theorem readName?_length {s name rest : List Char} (h : readName? s = some (name, rest)) :
    rest.length < s.length := by
  have hle := (List.dropWhile_suffix (p := Headers.isNameChar) (l := s)).length_le
  unfold readName? at h
  split at h
  · rename_i hdrop
    obtain ⟨rfl, rfl⟩ := Prod.mk.inj (Option.some.inj h)
    rw [hdrop] at hle
    simp at hle
    omega
  · simp at h

theorem nextParameter?_length {s rest : List Char} (h : nextParameter? s = some rest) :
    rest.length ≤ s.length := by
  unfold nextParameter? at h
  split at h <;> simp at h <;> subst h <;> simp

theorem readQuoted?_length {s value rest : List Char} (h : readQuoted? s = some (value, rest)) :
    rest.length ≤ s.length := by
  cases s with
  | nil => simp [readQuoted?] at h
  | cons c s =>
    have hle := (List.dropWhile_suffix (p := (· != '"')) (l := s)).length_le
    simp only [readQuoted?] at h
    split at h
    · rename_i hdrop
      rw [hdrop] at hle
      split at h
      · obtain ⟨-, rfl⟩ := Prod.mk.inj (Option.some.inj h)
        simp at hle ⊢
        omega
      · simp at h
    · simp at h

/-- A value, quoted or not, is read off the front. -/
theorem readValue?_length {s value rest : List Char} (h : readValue? s = some (value, rest)) :
    rest.length ≤ s.length := by
  unfold readValue? at h
  split at h
  · rename_i s
    simp only [Option.bind_eq_bind, Option.bind_eq_some_iff, Option.pure_def, Option.some.injEq]
      at h
    obtain ⟨⟨v, r⟩, hq, r', hn, he⟩ := h
    obtain ⟨-, rfl⟩ := Prod.mk.inj he
    have h1 := readQuoted?_length hq
    have h2 := nextParameter?_length hn
    have h3 := (List.dropWhile_suffix (p := (· == ' ')) (l := r)).length_le
    simp only [List.length_cons]
    exact Nat.le_succ_of_le (Nat.le_trans h2 (Nat.le_trans h3 h1))
  · have hle := (List.dropWhile_suffix (p := Headers.isNameChar) (l := s)).length_le
    split at h
    · obtain ⟨-, rfl⟩ := Prod.mk.inj (Option.some.inj h)
      simp
    · simp at h
    · simp only [Option.map_eq_some_iff] at h
      obtain ⟨r, hn, he⟩ := h
      obtain ⟨-, rfl⟩ := Prod.mk.inj he
      exact Nat.le_trans (nextParameter?_length hn) hle

/-- The parameters of a text. Blanks may stand in front of each. -/
def readParameters? (s : List Char) : Option (List (String × String)) :=
  match s with
  | [] => some []
  | c :: t =>
    if c = ' ' then readParameters? t
    else
      match _hn : readName? (c :: t) with
      | none => none
      | some (name, afterName) =>
        match _hv : readValue? afterName with
        | none => none
        | some (value, rest) =>
          (readParameters? rest).map ((lower name, String.ofList value) :: ·)
termination_by s.length
decreasing_by
  · simp
  · have h1 := readName?_length _hn
    have h2 := readValue?_length _hv
    omega

/-- A subtype without the suffix behind its last plus sign. -/
def withoutSuffix (s : List Char) : List Char :=
  match (s.drop 1).reverse.dropWhile (· != '+') with
  | _ :: before => s.take 1 ++ before.reverse
  | [] => s

def ofText? (text : String) : Option MediaType :=
  let s := text.toList
  match s.takeWhile Headers.isNameChar, s.dropWhile Headers.isNameChar with
  | c :: type, '/' :: rest =>
    let subtype := rest.takeWhile Headers.isNameChar
    let made (parameters : List (String × String)) : MediaType :=
      ⟨lower (c :: type), lower (withoutSuffix subtype), parameters⟩
    match subtype, rest.dropWhile Headers.isNameChar with
    | _, [] => some (made [])
    | _ :: _, ';' :: s => (readParameters? s).map made
    | _, _ => none
  | _, _ => none

/-- The first value of a parameter. -/
def parameter? (m : MediaType) (name : String) : Option String := m.parameters.lookup name

end MediaType
end Speedtest.Http
