import Speedtest.Http.Paths

/-!
# Mount points

A mount point is a path under which all others stand. A name between braces in it is a parameter, which
stands for any text without a slash; a doubled brace is the brace itself. A parameter ends its segment, and
a segment may start neither with a colon nor with an asterisk. What breaks these rules can not be mounted.
-/
namespace Speedtest.Http

/-- A piece of a mount point. -/
inductive Piece where
  | letter (c : Char)
  | parameter
  deriving DecidableEq

/-- The pieces of a mount point in order; the root has none. -/
structure Mount where
  pieces : List Piece
  deriving DecidableEq

namespace Mount

def root : Mount := ⟨[]⟩

/-- The most parameters that a mount point may have. -/
def maxParameters : Nat := 25

/-- Characters, each with whether it is a brace that was doubled. -/
abbrev Marked := List (Char × Bool)

/-- A text with its doubled braces made single. -/
def mark : List Char → Marked
  | '\x7b' :: '\x7b' :: s => ('\x7b', true) :: mark s
  | '\x7d' :: '\x7d' :: s => ('\x7d', true) :: mark s
  | c :: s => (c, false) :: mark s
  | [] => []

/-- What follows the brace that closes a parameter, of whose name something has been read. -/
def closeName? : Marked → Option Marked
  | [] => none
  | ('\x7d', false) :: s => some s
  | (c, _) :: s => if c = '*' ∨ c = '/' then none else closeName? s

theorem closeName?_length {s rest : Marked} (h : closeName? s = some rest) :
    rest.length < s.length := by
  induction s with
  | nil => simp [closeName?] at h
  | cons a s ih =>
    unfold closeName? at h
    split at h
    · simp_all
    · rename_i heq
      obtain ⟨-, rfl⟩ := List.cons.inj heq
      obtain rfl := Option.some.inj h
      simp
    · rename_i heq
      obtain ⟨-, rfl⟩ := List.cons.inj heq
      split at h
      · simp at h
      · exact Nat.lt_succ_of_lt (ih h)

/-- What follows a parameter whose opening brace is behind us. It has a name, and its segment ends with it.
An asterisk would make it stand for several segments. -/
def closeParameter? : Marked → Option Marked
  | [] => none
  | (c, _) :: s =>
    if c = '\x7d' ∨ c = '*' then none
    else (closeName? s).filter fun rest => rest.head?.all (·.1 == '/')

theorem closeParameter?_length {s rest : Marked} (h : closeParameter? s = some rest) :
    rest.length < s.length := by
  cases s with
  | nil => simp [closeParameter?] at h
  | cons a s =>
    simp only [closeParameter?] at h
    split at h
    · simp at h
    · simp only [Option.filter_eq_some_iff] at h
      exact Nat.lt_succ_of_lt (closeName?_length h.1)

def pieces? (s : Marked) : Option (List Piece) :=
  match s with
  | [] => some []
  | (c, doubled) :: t =>
    if c = '\x7b' ∧ doubled = false then
      match _h : closeParameter? t with
      | some rest => (pieces? rest).map (.parameter :: ·)
      | none => none
    else if c = '\x7d' ∧ doubled = false then none
    else (pieces? t).map (.letter c :: ·)
termination_by s.length
decreasing_by
  · exact Nat.lt_succ_of_lt (closeParameter?_length _h)
  · simp

/-- Whether no segment of a path starts with a colon or an asterisk. -/
def segmentsAllowed (path : List Char) : Bool :=
  (path.splitOn '/').all fun segment => segment.head? != some ':' && segment.head? != some '*'

/-- The mount point of a base, if it can be mounted. -/
def ofBase? (base : String) : Option Mount :=
  match Paths.mountPoint base with
  | none => some root
  | some path =>
    if segmentsAllowed path.toList then
      (pieces? (mark path.toList)).bind fun pieces =>
        if pieces.count .parameter ≤ maxParameters then some ⟨pieces⟩ else none
    else none

/-- What follows pieces at the front of a path. -/
def rest? : List Piece → List Char → Option (List Char)
  | [], s => some s
  | .letter c :: pieces, d :: s => if c = d then rest? pieces s else none
  | .letter _ :: _, [] => none
  | .parameter :: pieces, s => rest? pieces (s.dropWhile (· != '/'))

def under? (m : Mount) (path : String) : Option String :=
  (rest? m.pieces path.toList).map String.ofList

end Mount
end Speedtest.Http
