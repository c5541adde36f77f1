/-!
# Scanning lists from the left

Reading a text here means walking a list from its front. The functions below take a fixed lead off a
list, cut it at the first element of a kind, and drop a kind of element from both ends. Each has the
small law that later readers cite.
-/
namespace Speedtest.Text

variable {α : Type}

/-- The rest of `s` after `lead`, when `s` starts with it. -/
def dropLead? [BEq α] : (lead s : List α) → Option (List α)
  | [], s => some s
  | _ :: _, [] => none
  | a :: lead, b :: s => if a == b then dropLead? lead s else none

/-- Whether `s` starts with `lead`. -/
def startsWith [BEq α] (lead s : List α) : Bool := (dropLead? lead s).isSome

/-- The part before the first element that satisfies `p`, and the part after it. -/
def cutAt? (p : α → Bool) (s : List α) : Option (List α × List α) :=
  match s.dropWhile fun a => !p a with
  | [] => none
  | _ :: after => some (s.takeWhile fun a => !p a, after)

/-- Drops the elements that satisfy `p` from the back. -/
def dropBack (p : α → Bool) (s : List α) : List α := (s.reverse.dropWhile p).reverse

/-- Drops the elements that satisfy `p` from both ends. -/
def trimBy (p : α → Bool) (s : List α) : List α := dropBack p (s.dropWhile p)

/-- The part before the first occurrence of `pattern` and the part after it, where `done` is what has been
passed already, in reverse. -/
def cutAroundFrom? [BEq α] (pattern done : List α) (s : List α) : Option (List α × List α) :=
  match dropLead? pattern s, s with
  | some after, _ => some (done.reverse, after)
  | none, [] => none
  | none, a :: s => cutAroundFrom? pattern (a :: done) s

/-- The part before the first occurrence of `pattern` and the part after it. -/
def cutAround? [BEq α] (pattern s : List α) : Option (List α × List α) :=
  cutAroundFrom? pattern [] s

theorem dropLead?_eq_some_iff [BEq α] [LawfulBEq α] {lead s rest : List α} :
    dropLead? lead s = some rest ↔ s = lead ++ rest := by
  induction lead generalizing s with
  | nil => simp [dropLead?, eq_comm]
  | cons a lead ih =>
    cases s with
    | nil => simp [dropLead?]
    | cons b s =>
      by_cases h : a = b
      · subst h; simp [dropLead?, ih]
      · have h' : ¬ b = a := fun e => h e.symm
        simp [dropLead?, h, h']

theorem dropLead?_append [BEq α] [LawfulBEq α] (lead rest : List α) :
    dropLead? lead (lead ++ rest) = some rest :=
  dropLead?_eq_some_iff.2 rfl

theorem startsWith_iff [BEq α] [LawfulBEq α] {lead s : List α} :
    startsWith lead s = true ↔ ∃ rest, s = lead ++ rest := by
  simp [startsWith, Option.isSome_iff_exists, dropLead?_eq_some_iff]

/-- A cut is made at the first element that satisfies the test. -/
theorem cutAt?_eq_some {p : α → Bool} {s before after : List α}
    (h : cutAt? p s = some (before, after)) :
    ∃ a, p a = true ∧ s = before ++ a :: after ∧ ∀ b ∈ before, p b = false := by
  unfold cutAt? at h
  split at h
  · simp at h
  · rename_i a rest hdrop
    obtain ⟨rfl, rfl⟩ := Prod.mk.inj (Option.some.inj h)
    have hsplit := List.takeWhile_append_dropWhile (p := fun a => !p a) (l := s)
    rw [hdrop] at hsplit
    refine ⟨a, ?_, hsplit.symm, ?_⟩
    · have := List.head_dropWhile_not (fun a => !p a) (l := s) (by simp [hdrop])
      simpa [hdrop] using this
    · intro b hb
      have hall := List.all_takeWhile (p := fun a => !p a) (l := s)
      rw [List.all_eq_true] at hall
      simpa using hall b hb

/-- A cut around a pattern loses nothing but the pattern. -/
theorem cutAroundFrom?_eq_some [BEq α] [LawfulBEq α] {pattern done s before after : List α}
    (h : cutAroundFrom? pattern done s = some (before, after)) :
    done.reverse ++ s = before ++ pattern ++ after := by
  induction s generalizing done with
  | nil =>
    unfold cutAroundFrom? at h
    split at h
    · rename_i hlead
      obtain ⟨rfl, rfl⟩ := Prod.mk.inj (Option.some.inj h)
      rw [dropLead?_eq_some_iff.1 hlead, List.append_assoc]
    · simp at h
    · simp_all
  | cons a s ih =>
    unfold cutAroundFrom? at h
    split at h
    · rename_i hlead
      obtain ⟨rfl, rfl⟩ := Prod.mk.inj (Option.some.inj h)
      rw [dropLead?_eq_some_iff.1 hlead, List.append_assoc]
    · simp_all
    · rename_i hcons
      obtain ⟨rfl, rfl⟩ := List.cons.inj hcons
      simpa using ih h

theorem cutAround?_eq_some [BEq α] [LawfulBEq α] {pattern s before after : List α}
    (h : cutAround? pattern s = some (before, after)) : s = before ++ pattern ++ after := by
  simpa using cutAroundFrom?_eq_some h

end Speedtest.Text
