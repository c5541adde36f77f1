import Speedtest.Text.Percent
import Speedtest.Text.Scan
import Speedtest.Text.Utf8

/-!
# Form data

A form is a list of named texts. It is written as `name=value` pairs with `&` between them, where a
space is a plus sign and every other byte outside a small set is escaped. The same name may come again;
whoever looks a name up gets its first value.
-/
namespace Speedtest.Form

/-- Named texts in the order in which they were given. -/
abbrev Pairs := List (String × String)

/-- The text of a name or a value: plus signs are spaces, escapes are undone, and whatever is no text
becomes a replacement character. -/
def decodePart (s : Bytes) : String :=
  String.ofList (Text.Utf8.decodeLenient
    (Text.Percent.decode (s.map fun b => if b == 0x2B then 0x20 else b)))

/-- A name and a value from what stands between two ampersands. Without an equals sign the value is
empty. -/
def readPair (s : Bytes) : String × String :=
  match Text.cutAt? (· == 0x3D) s with
  | some (name, value) => (decodePart name, decodePart value)
  | none => (decodePart s, "")

/-- The pairs that a byte string writes. Empty pieces are passed over. -/
def read (s : Bytes) : Pairs := ((s.splitOn 0x26).filter (!·.isEmpty)).map readPair

/-- The bytes of a name or a value that stand for themselves. -/
def isPlain (b : UInt8) : Bool :=
  (0x30 ≤ b && b ≤ 0x39) || (0x41 ≤ b && b ≤ 0x5A) || (0x61 ≤ b && b ≤ 0x7A) ||
    b == 0x2A || b == 0x2D || b == 0x2E || b == 0x5F

def encodePart (s : String) : List Char :=
  (Text.Utf8.encode s.toList).flatMap fun b =>
    if b == 0x20 then ['+']
    else if isPlain b then [Char.ofNat b.toNat]
    else Text.Percent.escaped b

def writePair (p : String × String) : List Char := encodePart p.1 ++ '=' :: encodePart p.2

/-- Pairs as they are written, with ampersands between them. -/
def write (pairs : Pairs) : List Char :=
  match pairs with
  | [] => []
  | [p] => writePair p
  | p :: rest => writePair p ++ '&' :: write rest

/-- The first value of a name in a written form, if there is one. -/
def first? (written : Option Bytes) (name : String) : Option String :=
  written.bind fun s => (read s).lookup name

/-- Adds a pair unless its name is there already. -/
def keepFirst (known : Pairs) (p : String × String) : Pairs :=
  if (known.lookup p.1).isSome then known else known ++ [p]

/-- Adds the pairs of a written form. A name that is there already keeps its value. -/
def collect (known : Pairs) (written : Bytes) : Pairs := (read written).foldl keepFirst known

/-- What was known already wins over a pair that is added. -/
theorem lookup_keepFirst (known : Pairs) (p : String × String) (name : String) :
    (keepFirst known p).lookup name = (known.lookup name).or ([p].lookup name) := by
  obtain ⟨key, value⟩ := p
  unfold keepFirst
  split
  · rename_i h
    by_cases hn : name = key
    · subst hn
      obtain ⟨v, hv⟩ := Option.isSome_iff_exists.1 h
      simp [hv]
    · have : (name == key) = false := by simpa using hn
      simp [List.lookup_cons, this]
  · simp [List.lookup_append]

/-- After collecting, a name has the value it had, or else its first value in the form. -/
theorem lookup_foldl_keepFirst (pairs known : Pairs) (name : String) :
    (pairs.foldl keepFirst known).lookup name = (known.lookup name).or (pairs.lookup name) := by
  induction pairs generalizing known with
  | nil => simp
  | cons p pairs ih =>
    rw [List.foldl_cons, ih, lookup_keepFirst, Option.or_assoc]
    congr 1
    obtain ⟨key, value⟩ := p
    cases hp : name == key <;> simp [List.lookup_cons, hp]

theorem lookup_collect (known : Pairs) (written : Bytes) (name : String) :
    (collect known written).lookup name = (known.lookup name).or (first? (some written) name) :=
  lookup_foldl_keepFirst _ _ _

end Speedtest.Form
