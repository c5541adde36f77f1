import Speedtest.Proofs.Http.Mounting

/-!
# Bases that can be mounted

A base is written with letters, doubled braces and parameters. What can be mounted is described by a grammar over the
characters of the base with their doubled braces made single, so that every brace that is left opens or closes a
parameter. The mount point is found exactly where the base is written by the grammar, starts no segment with a colon or
an asterisk, and does not have too many parameters.
-/
namespace Speedtest.Http.Mount

/-! ## Parameters -/

/-- What may stand in the name of a parameter behind its first character. -/
def MayName (a : Char × Bool) : Prop := a ≠ ('\x7d', false) ∧ a.1 ≠ '*' ∧ a.1 ≠ '/'

/-- The name of a parameter and the brace that closes it, and then the end of the segment. -/
inductive ClosesTo : Marked → Marked → Prop where
  | intro {c : Char} {doubled : Bool} {name rest : Marked} (hfirst : c ≠ '\x7d' ∧ c ≠ '*')
    (hname : ∀ a ∈ name, MayName a) (hrest : ∀ a, rest.head? = some a → a.1 = '/') :
    ClosesTo ((c, doubled) :: name ++ ('\x7d', false) :: rest) rest

/-- What marked characters write. -/
inductive Writes : Marked → List Piece → Prop where
  | nil : Writes [] []
  | letter {c : Char} {doubled : Bool} {s : Marked} {pieces : List Piece}
    (hletter : c = '\x7b' ∨ c = '\x7d' → doubled = true) (hs : Writes s pieces) :
    Writes ((c, doubled) :: s) (.letter c :: pieces)
  | parameter {s rest : Marked} {pieces : List Piece} (hcloses : ClosesTo s rest) (hrest : Writes rest pieces) :
    Writes (('\x7b', false) :: s) (.parameter :: pieces)

theorem closeName?_cons {a : Char × Bool} (h : a ≠ ('\x7d', false)) (s : Marked) :
    closeName? (a :: s) = if a.1 = '*' ∨ a.1 = '/' then none else closeName? s := by
  rw [closeName?]
  intro hchar hdoubled
  exact absurd (Prod.ext hchar hdoubled) h

/-- A name ends at the first brace that closes, and only some characters come before it. -/
theorem closeName?_eq_some_iff {s rest : Marked} :
    closeName? s = some rest ↔ ∃ name, (∀ a ∈ name, MayName a) ∧ s = name ++ ('\x7d', false) :: rest := by
  induction s with
  | nil =>
    refine iff_of_false nofun ?_
    rintro ⟨name, -, hs⟩
    exact List.append_ne_nil_of_right_ne_nil name (List.cons_ne_nil _ rest) hs.symm
  | cons a s ih =>
    by_cases hclose : a = ('\x7d', false)
    · subst hclose
      constructor
      · intro h
        obtain rfl := Option.some.inj h
        exact ⟨[], by simp⟩
      · rintro ⟨name, hname, hs⟩
        cases name with
        | nil =>
          obtain rfl := (List.cons.inj hs).2
          rfl
        | cons b name =>
          obtain rfl := (List.cons.inj hs).1
          exact absurd rfl (hname _ List.mem_cons_self).1
    · rw [closeName?_cons hclose]
      constructor
      · intro h
        split at h
        · exact nomatch h
        · rename_i hchar
          rw [not_or] at hchar
          obtain ⟨name, hname, rfl⟩ := ih.1 h
          exact ⟨a :: name, List.forall_mem_cons.2 ⟨⟨hclose, hchar⟩, hname⟩, rfl⟩
      · rintro ⟨name, hname, hs⟩
        cases name with
        | nil => exact absurd (List.cons.inj hs).1 hclose
        | cons b name =>
          obtain ⟨rfl, rfl⟩ := List.cons.inj hs
          obtain ⟨hb, hname⟩ := List.forall_mem_cons.1 hname
          rw [if_neg (not_or.2 hb.2)]
          exact ih.2 ⟨name, hname, rfl⟩

theorem closeParameter?_eq_some_iff {s rest : Marked} : closeParameter? s = some rest ↔ ClosesTo s rest := by
  constructor
  · intro h
    cases s with
    | nil => cases h
    | cons a s =>
      obtain ⟨c, doubled⟩ := a
      rw [closeParameter?] at h
      split at h
      · cases h
      · rename_i hfirst
        obtain ⟨hclose, hend⟩ := Option.filter_eq_some_iff.1 h
        obtain ⟨name, hname, rfl⟩ := closeName?_eq_some_iff.1 hclose
        refine .intro (not_or.1 hfirst) hname fun a ha => ?_
        rw [ha] at hend
        exact eq_of_beq hend
  · rintro ⟨hfirst, hname, hend⟩
    rw [List.cons_append, closeParameter?, if_neg (not_or.2 hfirst), Option.filter_eq_some_iff]
    refine ⟨closeName?_eq_some_iff.2 ⟨_, hname, rfl⟩, ?_⟩
    cases hhead : rest.head? with
    | none => rfl
    | some a => exact beq_iff_eq.2 (hend a hhead)

/-! ## Pieces -/

/-- The pieces of a base are those that the grammar gives it. -/
theorem pieces?_eq_some_iff {s : Marked} {pieces : List Piece} : pieces? s = some pieces ↔ Writes s pieces := by
  constructor
  · intro h
    fun_induction pieces? s generalizing pieces with
    | case1 =>
      obtain rfl := Option.some.inj h
      exact .nil
    | case2 _ _ _ hopen _ hclosed ih =>
      obtain ⟨rfl, rfl⟩ := hopen
      obtain ⟨others, hothers, rfl⟩ := Option.map_eq_some_iff.1 h
      exact .parameter (closeParameter?_eq_some_iff.1 hclosed) (ih hothers)
    | case3 => cases h
    | case4 => cases h
    | case5 c doubled _ hopen hclose ih =>
      obtain ⟨others, hothers, rfl⟩ := Option.map_eq_some_iff.1 h
      refine .letter (fun hbrace => ?_) (ih hothers)
      cases doubled with
      | true => rfl
      | false => exact (hbrace.elim (fun hc => hopen ⟨hc, rfl⟩) fun hc => hclose ⟨hc, rfl⟩).elim
  · intro h
    induction h with
    | nil => rw [pieces?]
    | @letter c doubled s pieces hletter hs ih =>
      have hopen : ¬ (c = '\x7b' ∧ doubled = false) := by
        rintro ⟨hc, hdoubled⟩
        rw [hletter (.inl hc)] at hdoubled
        cases hdoubled
      have hclose : ¬ (c = '\x7d' ∧ doubled = false) := by
        rintro ⟨hc, hdoubled⟩
        rw [hletter (.inr hc)] at hdoubled
        cases hdoubled
      rw [pieces?, if_neg hopen, if_neg hclose, ih]
      rfl
    | @parameter s rest pieces hcloses hrest ih =>
      have hclosed := closeParameter?_eq_some_iff.2 hcloses
      rw [pieces?, if_pos ⟨rfl, rfl⟩]
      split
      · rename_i found hfound
        obtain rfl := Option.some.inj (hclosed.symm.trans hfound)
        rw [ih]
        rfl
      · rename_i hnone
        cases hclosed.symm.trans hnone

/-! ## Bases -/

theorem toList_place (base : String) :
    ((Paths.mountPoint base).getD "").toList =
      if Text.trimBy (· == '/') base.toList = [] then [] else '/' :: Text.trimBy (· == '/') base.toList := by
  unfold Paths.mountPoint
  cases Text.trimBy (· == '/') base.toList with
  | nil => rfl
  | cons c core => rw [Option.getD_some, String.toList_ofList, if_neg (List.cons_ne_nil c core)]

/-- A base has one place. -/
theorem isPlace_iff {base place : String} : IsPlace base place ↔ place = (Paths.mountPoint base).getD "" := by
  constructor
  · rintro ⟨front, core, back, hsplit, hslashes, hhead, hlast, hplace⟩
    have hstops {s : List Char} (h : s.head? ≠ some '/') : Text.Stops (· == '/') s := by
      intro c hc
      rw [beq_eq_false_iff_ne]
      rintro rfl
      exact h hc
    have hrun {s : List Char} (h : ∀ c ∈ s, c ∈ front ++ back) : ∀ c ∈ s, (c == '/') = true :=
      fun c hc => beq_iff_eq.2 (hslashes c (h c hc))
    have hcore : Text.trimBy (· == '/') base.toList = core := by
      rw [hsplit]
      refine Text.trimBy_append (hrun fun c => List.mem_append_left back) (hrun fun c => List.mem_append_right front)
        (hstops hhead) (hstops ?_)
      rwa [List.head?_reverse]
    rw [← String.toList_inj, toList_place, hcore, hplace]
  · rintro rfl
    obtain ⟨front, back, hsplit, htrimmed, hfirst, hlast⟩ := Text.trimBy_spec (p := (· == '/')) base.toList
    refine ⟨front, Text.trimBy (· == '/') base.toList, back, hsplit, fun c hc => eq_of_beq (htrimmed c hc), ?_, ?_,
      toList_place base⟩
    · exact fun hc => absurd (hfirst '/' hc) (by decide)
    · rw [← List.head?_reverse]
      exact fun hc => absurd (hlast '/' hc) (by decide)

/-- How a base is mounted: its place is written by the grammar, no segment of it starts with a colon or an asterisk, and
it has 25 parameters at most. -/
structure IsMount (base : String) (m : Mount) : Prop where
  writes : ∃ place, IsPlace base place ∧ Writes (mark place.toList) m.pieces ∧
    ∀ segment ∈ place.toList.splitOn '/', segment.head? ≠ some ':' ∧ segment.head? ≠ some '*'
  few : m.pieces.count .parameter ≤ 25

theorem segmentsAllowed_iff {path : List Char} :
    segmentsAllowed path = true ↔
      ∀ segment ∈ path.splitOn '/', segment.head? ≠ some ':' ∧ segment.head? ≠ some '*' := by
  simp only [segmentsAllowed, List.all_eq_true, Bool.and_eq_true, bne_iff_ne]

/-- A mount point is made of a base exactly where the base writes one. -/
theorem ofBase?_eq_some_iff {base : String} {m : Mount} : ofBase? base = some m ↔ IsMount base m := by
  have hplace {place : String} : IsPlace base place ↔ place = (Paths.mountPoint base).getD "" := isPlace_iff
  unfold ofBase?
  cases hpoint : Paths.mountPoint base with
  | none =>
    rw [hpoint, Option.getD_none] at hplace
    constructor
    · intro h
      obtain rfl := Option.some.inj h
      exact ⟨⟨"", hplace.2 rfl, .nil, by decide⟩, Nat.zero_le 25⟩
    · rintro ⟨⟨place, hmount, hwrites, -⟩, -⟩
      obtain rfl := hplace.1 hmount
      obtain ⟨pieces⟩ := m
      cases hwrites
      rfl
  | some path =>
    rw [hpoint, Option.getD_some] at hplace
    dsimp only
    constructor
    · intro h
      split at h
      · rename_i hallowed
        obtain ⟨pieces, hpieces, h⟩ := Option.bind_eq_some_iff.1 h
        split at h
        · rename_i hfew
          obtain rfl := Option.some.inj h
          exact ⟨⟨path, hplace.2 rfl, pieces?_eq_some_iff.1 hpieces, segmentsAllowed_iff.1 hallowed⟩, hfew⟩
        · exact nomatch h
      · exact nomatch h
    · rintro ⟨⟨place, hmount, hwrites, hsegments⟩, hfew⟩
      obtain rfl := hplace.1 hmount
      rw [if_pos (segmentsAllowed_iff.2 hsegments), pieces?_eq_some_iff.2 hwrites, Option.bind_some]
      exact if_pos hfew

end Speedtest.Http.Mount
