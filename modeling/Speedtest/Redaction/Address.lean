import Speedtest.Text.Digit
import Speedtest.Text.Replace
import Speedtest.Text.Word

/-!
# Where an address may stand

Two patterns find what looks like an address in free text. The IPv4 pattern wants the edge of a word on
both sides and takes digits of every script. The IPv6 pattern looks at no neighbours: it takes eight
groups, or groups around a double colon, or a double colon with groups behind it, in this order and each
as long as it can be.
-/
namespace Speedtest.Redaction

/-- Up to three digits and the dot behind them. -/
def dotted? (s : List Char) : Option (Nat × List Char) :=
  match Text.run? 3 Text.isDigit s with
  | some (n, '.' :: rest) => some (n + 1, rest)
  | _ => none

/-- Four runs of up to three digits with dots between them, as a word of its own. -/
def v4 : Text.Pattern := fun before s => do
  if before.any Text.isWord then none else
  let (a, s) ← dotted? s
  let (b, s) ← dotted? s
  let (c, s) ← dotted? s
  let (d, s) ← Text.run? 3 Text.isDigit s
  if s.head?.any Text.isWord then none else some (a + b + c + d)

/-- Up to four hexadecimal digits. -/
def group? (s : List Char) : Option (Nat × List Char) := Text.run? 4 Text.isHexDigit s

/-- Up to four hexadecimal digits and the colon behind them. -/
def closed? (s : List Char) : Option (Nat × List Char) :=
  match group? s with
  | some (n, ':' :: rest) => some (n + 1, rest)
  | _ => none

/-- Groups at a place: how many there are, how many characters they take, and the text behind them. -/
structure Groups where
  count : Nat
  taken : Nat
  rest : List Char

/-- As many groups with colons behind them as there are, up to `most`. -/
def closedGroups : (most : Nat) → List Char → Groups
  | 0, s => ⟨0, 0, s⟩
  | most + 1, s =>
    match closed? s with
    | some (n, rest) =>
      let g := closedGroups most rest
      ⟨g.count + 1, n + g.taken, g.rest⟩
    | none => ⟨0, 0, s⟩

/-- How many characters groups with colons in front of them take, up to `most` groups. -/
def openGroups : (most : Nat) → List Char → Nat
  | 0, _ => 0
  | most + 1, s =>
    match s with
    | ':' :: t => match group? t with
      | some (n, rest) => 1 + n + openGroups most rest
      | none => 0
    | _ => 0

/-- Eight groups. -/
def whole? (s : List Char) : Option Nat :=
  let g := closedGroups 7 s
  if g.count = 7 then (group? g.rest).map fun (n, _) => g.taken + n else none

/-- Groups in front of a double colon, and perhaps groups behind it. -/
def inner? (s : List Char) : Option Nat :=
  let g := closedGroups 7 s
  match g.count, g.rest with
  | _ + 1, ':' :: t => match group? t with
    | some (n, rest) => some (g.taken + 1 + n + openGroups 5 rest)
    | none => some (g.taken + 1)
  | _, _ => none

/-- A double colon and groups behind it. A colon behind the last group is left alone. -/
def leading? : List Char → Option Nat
  | ':' :: ':' :: s =>
    let g := closedGroups 6 s
    match group? g.rest, g.count with
    | some (n, _), _ => some (2 + g.taken + n)
    | none, _ + 1 => some (1 + g.taken)
    | none, 0 => none
  | _ => none

/-- An IPv6 address of any of the three shapes. -/
def v6 : Text.Pattern := fun _ s => (whole? s).or ((inner? s).or (leading? s))

end Speedtest.Redaction
