import Speedtest.Download.Chunk
import Speedtest.Proofs.Text.Numeral

/-!
# The number of chunks

A numeral may have any length, and a count of chunks is a machine word. `Asks` tells the count for what a client asked
without words or limits, and `chunkWord` computes it in words: 64 bits to read the numeral, with both parts of every
step checked, and 32 bits to count. The comparison with the maximum comes before the word is narrowed, so nothing is
lost there, and both are the count of the model.
-/
namespace Speedtest

namespace Text

/-! ## Numerals in words -/

def checkedMul? (a b : UInt64) : Option UInt64 := if a.toNat * b.toNat < UInt64.size then some (a * b) else none

def checkedAdd? (a b : UInt64) : Option UInt64 := if a.toNat + b.toNat < UInt64.size then some (a + b) else none

/-- The word written by a run of digits, after the digits that make `acc`. -/
def wordFrom (acc : UInt64) : List Char → Option UInt64
  | [] => some acc
  | c :: s => do
    let d ← digitValue? c
    let tens ← checkedMul? acc 10
    wordFrom (← checkedAdd? tens (.ofNat d)) s

/-- The word written by at least one digit, with an optional plus sign in front. -/
def readWord? : List Char → Option UInt64
  | [] | ['+'] => none
  | '+' :: s => wordFrom 0 s
  | s => wordFrom 0 s

variable {a b w n : UInt64} {s : List Char}

theorem checkedMul?_eq_some_iff : checkedMul? a b = some w ↔ w.toNat = a.toNat * b.toNat := by
  unfold checkedMul?
  split
  case isTrue h =>
    have hproduct : (a * b).toNat = a.toNat * b.toNat := by
      rw [UInt64.toNat_mul]
      exact Nat.mod_eq_of_lt h
    rw [Option.some.injEq, ← hproduct, UInt64.toNat_inj, eq_comm]
  case isFalse h =>
    refine iff_of_false nofun fun hw => h ?_
    rw [← hw]
    exact w.toNat_lt_size

theorem checkedAdd?_eq_some_iff : checkedAdd? a b = some w ↔ w.toNat = a.toNat + b.toNat := by
  unfold checkedAdd?
  split
  case isTrue h =>
    have hsum : (a + b).toNat = a.toNat + b.toNat := by
      rw [UInt64.toNat_add]
      exact Nat.mod_eq_of_lt h
    rw [Option.some.injEq, ← hsum, UInt64.toNat_inj, eq_comm]
  case isFalse h =>
    refine iff_of_false nofun fun hw => h ?_
    rw [← hw]
    exact w.toNat_lt_size

/-- A step is taken in words where its number fits. -/
theorem step_eq_some_iff {d : Nat} (hd : d < 10) :
    ((checkedMul? a 10).bind fun tens => checkedAdd? tens (.ofNat d)) = some w ↔ w.toNat = a.toNat * 10 + d := by
  have hdigit : (UInt64.ofNat d).toNat = d := UInt64.toNat_ofNat_of_lt' (Nat.lt_trans hd (by decide))
  have hten : (10 : UInt64).toNat = 10 := rfl
  simp only [Option.bind_eq_some_iff, checkedMul?_eq_some_iff, checkedAdd?_eq_some_iff, hdigit, hten]
  constructor
  · rintro ⟨tens, htens, hw⟩
    rw [hw, htens]
  · intro hw
    have hfits : a.toNat * 10 < UInt64.size := by
      have hlt := w.toNat_lt_size
      omega
    exact ⟨.ofNat (a.toNat * 10), UInt64.toNat_ofNat_of_lt' hfits, by rw [UInt64.toNat_ofNat_of_lt' hfits, hw]⟩

/-- Digits only make a number greater. -/
theorem le_of_numeralFrom {acc n : Nat} (h : numeralFrom 10 digitValue? acc s = some n) : acc ≤ n := by
  induction s generalizing acc with
  | nil => exact Nat.le_of_eq (Option.some.inj h)
  | cons c s ih =>
    rw [numeralFrom] at h
    obtain ⟨d, -, hrest⟩ := Option.bind_eq_some_iff.1 h
    have hle := ih hrest
    omega

/-- Checking every step is checking the number: where the number fits, all numbers on the way do. -/
theorem wordFrom_eq_some_iff : wordFrom a s = some n ↔ numeralFrom 10 digitValue? a.toNat s = some n.toNat := by
  induction s generalizing a with
  | nil => rw [wordFrom, numeralFrom, Option.some.injEq, Option.some.injEq, UInt64.toNat_inj]
  | cons c s ih =>
    have hword : wordFrom a (c :: s) = (digitValue? c).bind fun d =>
        ((checkedMul? a 10).bind fun tens => checkedAdd? tens (.ofNat d)).bind fun next => wordFrom next s := by
      simp only [Option.bind_assoc]
      rfl
    rw [hword, numeralFrom]
    cases hc : digitValue? c with
    | none => simp only [Option.bind_none, reduceCtorEq]
    | some d =>
      have hstep (w : UInt64) := step_eq_some_iff (a := a) (w := w) (digitChar_of_digitValue? hc).1
      rw [Option.bind_some, Option.bind_some, Option.bind_eq_some_iff]
      simp only [hstep, ih]
      constructor
      · rintro ⟨next, hnext, hrest⟩
        rwa [← hnext]
      · intro hrest
        have hfits : a.toNat * 10 + d < UInt64.size := Nat.lt_of_le_of_lt (le_of_numeralFrom hrest) n.toNat_lt_size
        have hnext : (UInt64.ofNat (a.toNat * 10 + d)).toNat = a.toNat * 10 + d := UInt64.toNat_ofNat_of_lt' hfits
        exact ⟨_, hnext, by rwa [hnext]⟩

/-- The reader over words reads the counts that fit into a word. -/
theorem readWord?_eq_some_iff : readWord? s = some n ↔ readCount? (Nat.pow 2 64) s = some n.toNat := by
  have hdigits (rest : List Char) (hrest : rest ≠ []) :
      wordFrom 0 rest = some n ↔ (readDigits? rest).filter (· < Nat.pow 2 64) = some n.toNat := by
    have hfits : n.toNat < Nat.pow 2 64 := n.toNat_lt
    rw [wordFrom_eq_some_iff, readDigits?_of_ne_nil hrest, Option.filter_eq_some_iff, decide_eq_true_eq]
    exact (and_iff_left hfits).symm
  unfold readWord? readCount?
  split
  case h_1 => exact iff_of_false nofun nofun
  case h_2 => exact iff_of_false nofun nofun
  case h_3 rest hrest => exact hdigits rest hrest
  case h_4 hnonempty _ hplus =>
    split
    · exact absurd rfl (hplus _)
    · exact hdigits _ hnonempty

/-- Reading into a word is reading a count that has to fit. -/
theorem map_toNat_readWord? (s : List Char) : (readWord? s).map UInt64.toNat = readCount? (Nat.pow 2 64) s := by
  apply Option.ext
  intro v
  rw [Option.map_eq_some_iff]
  constructor
  · rintro ⟨n, hn, rfl⟩
    exact readWord?_eq_some_iff.1 hn
  · intro hv
    have hfits : (UInt64.ofNat v).toNat = v := UInt64.toNat_ofNat_of_lt' (readCount?_lt hv)
    exact ⟨_, readWord?_eq_some_iff.2 (by rwa [hfits]), hfits⟩

end Text

namespace Download

/-! ## Counts -/

/-- The number of chunks for what a client asked: nothing at all, an empty text, a count, or some other text. -/
inductive Asks (default : Nat) : Option String → Nat → Prop where
  | absent : Asks default none default
  | empty : Asks default (some "") default
  | count {text : String} {v : Nat} (h : Text.WritesCount text.toList v) (hfits : v < Nat.pow 2 64) :
    Asks default (some text) (min v 1024)
  | other {text : String} (h : ∀ v, Text.WritesCount text.toList v → Nat.pow 2 64 ≤ v) :
    Asks default (some text) default

/-- Asking for a number of chunks is what the reader makes of the parameter. -/
theorem asks_iff {requested : Option String} {default n : Nat} :
    Asks default requested n ↔ chunkCount requested default = n := by
  constructor
  · rintro (_ | _ | ⟨hwrites, hfits⟩ | hother)
    case absent => rfl
    case empty => rfl
    case count text v =>
      have hread : Text.readCount? (Nat.pow 2 64) text.toList = some v :=
        Text.readCount?_eq_some_iff.2 ⟨hwrites, hfits⟩
      simp only [chunkCount, hread]
      rfl
    case other text =>
      have hread : Text.readCount? (Nat.pow 2 64) text.toList = none := Text.readCount?_eq_none_iff.2 hother
      simp only [chunkCount, hread]
  · rintro rfl
    unfold chunkCount
    cases requested with
    | none => exact .absent
    | some text =>
      dsimp only
      cases hread : Text.readCount? (Nat.pow 2 64) text.toList with
      | some v =>
        obtain ⟨hwrites, hfits⟩ := Text.readCount?_eq_some_iff.1 hread
        exact .count hwrites hfits
      | none => exact .other (Text.readCount?_eq_none_iff.1 hread)

/-- The number of chunks in words, for what a client asked. -/
def chunkWord (requested : Option String) (default : UInt32) : UInt32 :=
  match requested.filter (· != "") with
  | none => default
  | some text =>
    match Text.readWord? text.toList with
    | some n => if UInt64.ofNat maxChunks < n then .ofNat maxChunks else n.toUInt32
    | none => default

/-- A word is narrowed only where it is at most the maximum, so it keeps its number. -/
theorem toNat_clamp (n : UInt64) :
    (if UInt64.ofNat maxChunks < n then .ofNat maxChunks else n.toUInt32 : UInt32).toNat = min n.toNat maxChunks := by
  have hmax : (UInt64.ofNat maxChunks).toNat = maxChunks := rfl
  have hbound : maxChunks < 2 ^ 32 := by decide
  split
  case isTrue h =>
    rw [UInt64.lt_iff_toNat_lt, hmax] at h
    rw [Nat.min_eq_right (Nat.le_of_lt h)]
    rfl
  case isFalse h =>
    rw [UInt64.lt_iff_toNat_lt, hmax, Nat.not_lt] at h
    rw [Nat.min_eq_left h, UInt64.toNat_toUInt32]
    exact Nat.mod_eq_of_lt (Nat.lt_of_le_of_lt h hbound)

/-- The number of chunks in words is the number of chunks. -/
theorem toNat_chunkWord (requested : Option String) (default : UInt32) :
    (chunkWord requested default).toNat = chunkCount requested default.toNat := by
  cases requested with
  | none => rfl
  | some text =>
    by_cases hempty : text = ""
    · subst hempty
      rfl
    have hkept : (some text).filter (· != "") = some text := Option.filter_some_pos (bne_iff_ne.2 hempty)
    simp only [chunkWord, chunkCount, hkept, ← Text.map_toNat_readWord?]
    cases Text.readWord? text.toList with
    | some n => exact toNat_clamp n
    | none => rfl

/-! ## Countdown -/

namespace ChunkStream

/-- A download gives its chunk as often as it has chunks left, and then it is at its end whenever it is polled. -/
theorem items_polls (stream : ChunkStream) (polls : Nat) :
    (stream.polls polls).1 =
      List.replicate (min polls stream.remaining) (some stream.chunk) ++
        List.replicate (polls - stream.remaining) none := by
  induction polls generalizing stream with
  | zero => simp [ChunkStream.polls]
  | succ polls ih =>
    obtain ⟨chunk, remaining, started⟩ := stream
    cases remaining with
    | zero =>
      have hrest := ih ⟨chunk, 0, started⟩
      simp only [Nat.min_zero, List.replicate_zero, List.nil_append, Nat.sub_zero] at hrest ⊢
      exact congrArg (none :: ·) hrest
    | succ remaining =>
      have hrest := ih ⟨chunk, remaining, true⟩
      rw [Nat.succ_min_succ, Nat.succ_sub_succ, List.replicate_succ]
      exact congrArg (some chunk :: ·) hrest

end ChunkStream

end Download
end Speedtest
