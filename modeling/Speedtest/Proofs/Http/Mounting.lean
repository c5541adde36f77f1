import Speedtest.Http.Mount
import Speedtest.Proofs.Text.Scan

/-!
# Plain bases

A base without braces and asterisks, of which no segment starts with a colon, has no parameters. It can be mounted,
and the paths under it are those that start with its text: what stands between the slashes around it, behind one
slash, or nothing at all. Under any mount point, what follows a slash does not matter for where that point is.
-/
namespace Speedtest

namespace Http

/-- A base in which nothing has a meaning of its own. -/
structure PlainBase (base : String) : Prop where
  literal : ∀ c ∈ base.toList, c ≠ '\x7b' ∧ c ≠ '\x7d' ∧ c ≠ '*'
  noColon : ∀ segment ∈ base.toList.splitOn '/', segment.head? ≠ some ':'

instance (base : String) : Decidable (PlainBase base) :=
  decidable_of_iff
    (base.toList.all (fun c => c != '\x7b' && c != '\x7d' && c != '*') = true ∧
      (base.toList.splitOn '/').all (fun segment => segment.head? != some ':') = true) <| by
    simp only [List.all_eq_true, Bool.and_eq_true, bne_iff_ne, and_assoc]
    exact ⟨fun h => ⟨h.1, h.2⟩, fun h => ⟨h.literal, h.noColon⟩⟩

/-- The place of a base is what stands between the slashes around it, behind one slash; the root is nothing. -/
def IsPlace (base place : String) : Prop :=
  ∃ front core back, base.toList = front ++ core ++ back ∧ (∀ c ∈ front ++ back, c = '/') ∧
    core.head? ≠ some '/' ∧ core.getLast? ≠ some '/' ∧
    place.toList = if core = [] then [] else '/' :: core

namespace Mount

/-! ## Letters -/

theorem mark_of_literal {s : List Char} (h : ∀ c ∈ s, c ≠ '\x7b' ∧ c ≠ '\x7d') :
    mark s = s.map fun c => (c, false) := by
  fun_induction mark s with
  | case1 s => exact absurd rfl (h _ List.mem_cons_self).1
  | case2 s => exact absurd rfl (h _ List.mem_cons_self).2
  | case3 c s _ _ ih => rw [ih fun d hd => h d (List.mem_cons_of_mem _ hd), List.map_cons]
  | case4 => rfl

theorem pieces?_of_literal {s : List Char} (h : ∀ c ∈ s, c ≠ '\x7b' ∧ c ≠ '\x7d') :
    pieces? (s.map fun c => (c, false)) = some (s.map .letter) := by
  induction s with
  | nil => rw [List.map_nil, pieces?]; rfl
  | cons c s ih =>
    obtain ⟨hopen, hclose⟩ := h c List.mem_cons_self
    rw [List.map_cons, pieces?]
    simp only [hopen, hclose, false_and, if_false, ih fun d hd => h d (List.mem_cons_of_mem _ hd),
      Option.map_some, List.map_cons]

theorem rest?_letters {s path rest : List Char} :
    rest? (s.map .letter) path = some rest ↔ path = s ++ rest := by
  induction s generalizing path with
  | nil => simp [rest?]
  | cons c s ih =>
    cases path with
    | nil => simp [rest?]
    | cons d path =>
      by_cases hcd : c = d
      · simp [rest?, hcd, ih]
      · have hdc : ¬ d = c := fun h => hcd h.symm
        simp [rest?, hcd, hdc]

/-- The mount point of a place without parameters. -/
def ofPlace (place : String) : Mount := ⟨place.toList.map .letter⟩

theorem under?_ofPlace {place path rest : String} :
    (ofPlace place).under? path = some rest ↔ path = place ++ rest := by
  rw [under?, ofPlace, Option.map_eq_some_iff]
  constructor
  · rintro ⟨s, hs, rfl⟩
    rw [rest?_letters] at hs
    rw [← String.toList_inj, hs, String.toList_append, String.toList_ofList]
  · rintro rfl
    exact ⟨rest.toList, by rw [rest?_letters, String.toList_append], String.ofList_toList⟩

/-! ## Behind a slash -/

/-- What is under a mount point is no longer than the path. -/
theorem length_rest?_le {pieces : List Piece} {s t : List Char} (h : rest? pieces s = some t) : t.length ≤ s.length := by
  induction pieces generalizing s with
  | nil =>
    obtain rfl := Option.some.inj h
    exact Nat.le_refl _
  | cons piece pieces ih =>
    cases piece with
    | letter c =>
      cases s with
      | nil => exact nomatch h
      | cons d s =>
        rw [rest?] at h
        split at h
        · exact Nat.le_trans (ih h) (Nat.le_succ _)
        · exact nomatch h
    | parameter => exact Nat.le_trans (ih h) (List.dropWhile_sublist _).length_le

/-- What follows a slash does not matter for where the mount point is. -/
theorem rest?_slash {pieces : List Piece} {s t : List Char} (h : rest? pieces (s ++ ['/']) = some (t ++ ['/']))
    (rest : List Char) : rest? pieces (s ++ '/' :: rest) = some (t ++ '/' :: rest) := by
  induction pieces generalizing s with
  | nil =>
    obtain rfl : s = t := List.append_cancel_right (Option.some.inj h)
    rfl
  | cons piece pieces ih =>
    cases piece with
    | letter c =>
      cases s with
      | nil =>
        rw [List.nil_append, rest?] at h
        split at h
        · have hle := length_rest?_le h
          simp at hle
        · exact nomatch h
      | cons d s =>
        rw [List.cons_append, rest?] at h ⊢
        split at h
        case isTrue hc =>
          rw [if_pos hc]
          exact ih h
        case isFalse => exact nomatch h
    | parameter =>
      rw [rest?, Text.dropWhile_stop (by decide)] at h ⊢
      exact ih h

/-! ## Plain bases -/

/-- No segment of a plain base starts with a character that has a meaning there. -/
theorem segmentsAllowed_of_plain {base : String} (h : PlainBase base) {front core back : List Char}
    (hsplit : base.toList = front ++ core ++ back) (hslashes : ∀ c ∈ front ++ back, c = '/') :
    segmentsAllowed ('/' :: core) = true := by
  have hfront : ∀ c ∈ front, c = '/' := fun c hc => hslashes c (List.mem_append_left _ hc)
  have hback : ∀ c ∈ back, c = '/' := fun c hc => hslashes c (List.mem_append_right _ hc)
  have hsegments : ('/' :: core).splitOn '/' = [] :: core.splitOn '/' := by
    have hcut := List.splitOn_append_cons_self (a := '/') [] core
    rwa [List.splitOn_nil] at hcut
  rw [segmentsAllowed, hsegments, List.all_cons, Bool.and_eq_true, List.all_eq_true]
  refine ⟨rfl, fun segment hsegment => ?_⟩
  have hwhole : segment ∈ base.toList.splitOn '/' := by
    rw [hsplit]
    exact Text.mem_splitOn_append_right hback (Text.mem_splitOn_append_left hfront hsegment)
  have hstar : segment.head? ≠ some '*' := fun hhead =>
    (h.literal '*' (Text.mem_of_mem_splitOn hwhole (List.mem_of_mem_head? hhead))).2.2 rfl
  rw [Bool.and_eq_true, bne_iff_ne, bne_iff_ne]
  exact ⟨h.noColon segment hwhole, hstar⟩

/-- A plain base can be mounted, at its place and without parameters. -/
theorem ofBase?_of_plain {base : String} (h : PlainBase base) :
    ∃ place, IsPlace base place ∧ ofBase? base = some (ofPlace place) := by
  obtain ⟨front, back, hsplit, htrimmed, hfirst, hlast⟩ :=
    Text.trimBy_spec (p := (· == '/')) base.toList
  have hslashes : ∀ c ∈ front ++ back, c = '/' := fun c hc => eq_of_beq (htrimmed c hc)
  have hhead : (Text.trimBy (· == '/') base.toList).head? ≠ some '/' :=
    fun hc => absurd (hfirst '/' hc) (by decide)
  have hend : (Text.trimBy (· == '/') base.toList).getLast? ≠ some '/' := by
    rw [← List.head?_reverse]
    exact fun hc => absurd (hlast '/' hc) (by decide)
  unfold ofBase? Paths.mountPoint
  generalize Text.trimBy (· == '/') base.toList = core at hsplit hhead hend
  have hallowed := segmentsAllowed_of_plain h hsplit hslashes
  cases core with
  | nil =>
    -- Nothing but slashes is the root, which is mounted without looking at its pieces.
    exact ⟨"", ⟨front, [], back, hsplit, hslashes, hhead, hend, rfl⟩, rfl⟩
  | cons c core =>
    have hliteral : ∀ d ∈ '/' :: c :: core, d ≠ '\x7b' ∧ d ≠ '\x7d' := by
      intro d hd
      rcases List.mem_cons.1 hd with rfl | hd
      · decide
      · have hmem : d ∈ base.toList := by
          rw [hsplit]
          exact List.mem_append_left _ (List.mem_append_right _ hd)
        exact ⟨(h.literal d hmem).1, (h.literal d hmem).2.1⟩
    refine ⟨String.ofList ('/' :: c :: core),
      ⟨front, c :: core, back, hsplit, hslashes, hhead, hend, by simp⟩, ?_⟩
    have hcount : ∀ s : List Char, (s.map Piece.letter).count .parameter = 0 := by
      intro s
      simp [List.count_eq_zero]
    simp only [String.toList_ofList, hallowed, if_true, mark_of_literal hliteral,
      pieces?_of_literal hliteral, Option.bind_some, hcount, Nat.zero_le, ofPlace]

end Mount
end Http
end Speedtest
