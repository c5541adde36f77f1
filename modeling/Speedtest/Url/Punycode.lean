import Speedtest.Text.Ascii

/-!
# Labels in ASCII

A label of a domain name with characters outside ASCII is written with ASCII alone: first its ASCII
characters, then a run of base-36 digits that places the others in ascending order. The threshold of a
digit adapts to the distances between the places.
-/
namespace Speedtest.Url.Punycode

def digit (n : Nat) : Char := if n < 26 then Char.ofNat (97 + n) else Char.ofNat (22 + n)

/-- The number of a digit of either case. -/
def value? (c : Char) : Option Nat :=
  let c := Text.asciiLower c
  if 'a' ≤ c ∧ c ≤ 'z' then some (c.toNat - 97)
  else if '0' ≤ c ∧ c ≤ '9' then some (c.toNat - 22)
  else none

/-- The threshold of the digit at place `k`, where places count 36, 72 and so on. -/
def threshold (k bias : Nat) : Nat := min 26 (max 1 (k - bias))

/-- Divides by 35 until at most 455 is left, adding 36 to `k` each time. -/
def settle (delta k : Nat) : Nat × Nat :=
  if h : 455 < delta then settle (delta / 35) (k + 36) else (delta, k)
termination_by delta
decreasing_by omega

/-- The bias after a distance, when `count` characters are placed. -/
def adapt (delta count : Nat) (first : Bool) : Nat :=
  let delta := if first then delta / 700 else delta / 2
  let (delta, k) := settle (delta + delta / count) 0
  k + 36 * delta / (delta + 38)

theorem threshold_pos (k bias : Nat) : 1 ≤ threshold k bias := by unfold threshold; omega

def digits (bias k q : Nat) : List Char :=
  let t := threshold k bias
  if h : q < t then [digit q]
  else digit (t + (q - t) % (36 - t)) :: digits bias (k + 36) ((q - t) / (36 - t))
termination_by q
decreasing_by
  have := threshold_pos k bias
  have : (q - threshold k bias) / (36 - threshold k bias) ≤ q - threshold k bias := Nat.div_le_self _ _
  omega

/-- What is written so far: the digits, the distance to the next character, the bias and the number of
characters placed. -/
structure Writing where
  out : List Char
  delta : Nat
  bias : Nat
  placed : Nat

/-- Passes one character of the label while the characters with code point `m` are placed. -/
def Writing.pass (basic m : Nat) (w : Writing) (c : Char) : Writing :=
  if c.toNat < m then { w with delta := w.delta + 1 }
  else if c.toNat = m then
    { out := w.out ++ digits w.bias 36 w.delta
      delta := 0
      bias := adapt w.delta (w.placed + 1) (w.placed == basic)
      placed := w.placed + 1 }
  else w

/-- Places the code points of a list in turn; `low` is the least one that may still come. -/
def place (label : List Char) (basic : Nat) : List Nat → (low : Nat) → Writing → Writing
  | [], _, w => w
  | m :: rest, low, w =>
    let w := { w with delta := w.delta + (m - low) * (w.placed + 1) }
    let w := label.foldl (Writing.pass basic m) w
    place label basic rest (m + 1) { w with delta := w.delta + 1 }

/-- The ASCII form of a label, without the mark in front of it. -/
def encode (label : List Char) : List Char :=
  let basic := label.filter fun c => c.toNat < 128
  let others := ((label.filter fun c => 128 ≤ c.toNat).map Char.toNat).mergeSort.eraseDups
  let lead := if basic.isEmpty then [] else basic ++ ['-']
  lead ++ (place label basic.length others 128 ⟨[], 0, 72, basic.length⟩).out

/-- A distance read from digits: the distance and the digits left. -/
def distance? (bias : Nat) : (k weight sum : Nat) → List Char → Option (Nat × List Char)
  | _, _, _, [] => none
  | k, weight, sum, c :: s => do
    let d ← value? c
    let t := threshold k bias
    let sum := sum + d * weight
    if d < t then some (sum, s) else distance? bias (k + 36) (weight * (36 - t)) sum s

/-- Puts characters into `out` at the places that the digits give. Every step takes a digit; `fuel` is
the number of digits. -/
def insertAll : (fuel n i bias : Nat) → (out : List Char) → List Char → Option (List Char)
  | _, _, _, _, out, [] => some out
  | 0, _, _, _, _, _ => none
  | fuel + 1, n, i, bias, out, s => do
    let (delta, s) ← distance? bias 36 1 0 s
    let count := out.length + 1
    let spot := i + delta
    let n := n + spot / count
    let spot := spot % count
    if n.isValidChar then
      insertAll fuel n (spot + 1) (adapt delta count (i == 0))
        (out.take spot ++ Char.ofNat n :: out.drop spot) s
    else none

/-- The label of an ASCII form, without the mark in front of it. -/
def decode? (s : List Char) : Option (List Char) :=
  let tail := (s.reverse.takeWhile (· != '-')).reverse
  let lead := s.take (s.length - tail.length)
  insertAll tail.length 128 0 72 (lead.take (lead.length - 1)) tail

end Speedtest.Url.Punycode
