import Speedtest.Text.Scan

/-!
# Cutting and joining texts

A run of characters of a kind is taken off a text as a whole when what follows does not go on with it. Trimming
takes such runs off both ends. What is joined with a separator is made of the separator and its parts, and what is
split at one has no other characters than the text.
-/
namespace Speedtest.Text

variable {p : Char → Bool}

theorem forall_of_all {α : Type} {P : α → Prop} [DecidablePred P] {s : List α} (h : s.all (fun a => decide (P a)) = true) :
    ∀ a ∈ s, P a :=
  fun a ha => of_decide_eq_true (List.all_eq_true.1 h a ha)

theorem ne_of_kind {α : Type} {kind : α → Bool} {a b : α} (ha : kind a = true) (hb : kind b = false) : a ≠ b := by
  rintro rfl
  rw [ha] at hb
  exact nomatch hb

/-! ## Runs -/

/-- What follows a run of characters of a kind does not go on with it. -/
def Stops (p : Char → Bool) (rest : List Char) : Prop := ∀ c, rest.head? = some c → p c = false

theorem stops_nil (p : Char → Bool) : Stops p [] := fun _ h => nomatch h

theorem stops_cons {c : Char} (h : p c = false) (s : List Char) : Stops p (c :: s) := by
  rintro d hd
  obtain rfl := Option.some.inj hd
  exact h

theorem takeWhile_run {run rest : List Char} (hrun : ∀ c ∈ run, p c = true)
    (hstop : Stops p rest) : (run ++ rest).takeWhile p = run := by
  have hnil : rest.takeWhile p = [] := by
    cases rest with
    | nil => rfl
    | cons c s => rw [List.takeWhile_cons, hstop c rfl]; rfl
  rw [List.takeWhile_append_of_pos hrun, hnil, List.append_nil]

theorem dropWhile_run {run rest : List Char} (hrun : ∀ c ∈ run, p c = true)
    (hstop : Stops p rest) : (run ++ rest).dropWhile p = rest := by
  rw [List.dropWhile_append_of_pos hrun]
  cases rest with
  | nil => rfl
  | cons c s => rw [List.dropWhile_cons, hstop c rfl]; rfl

/-- A run goes no further than a character that stops it. -/
theorem takeWhile_stop {a : Char} (ha : p a = false) (s rest : List Char) :
    (s ++ a :: rest).takeWhile p = s.takeWhile p := by
  induction s with
  | nil => simp [ha]
  | cons c s ih => cases hc : p c <;> simp [hc, ih]

theorem dropWhile_stop {a : Char} (ha : p a = false) (s rest : List Char) :
    (s ++ a :: rest).dropWhile p = s.dropWhile p ++ a :: rest := by
  induction s with
  | nil => simp [ha]
  | cons c s ih => cases hc : p c <;> simp [hc, ih]

/-- A text is cut in one way into a run of a kind and what does not go on with it. -/
theorem run_append_inj {run run' rest rest' : List Char} (hrun : ∀ c ∈ run, p c = true)
    (hrun' : ∀ c ∈ run', p c = true) (hstop : Stops p rest) (hstop' : Stops p rest')
    (h : run ++ rest = run' ++ rest') : run = run' ∧ rest = rest' := by
  have hfront := takeWhile_run hrun hstop
  have hback := dropWhile_run hrun hstop
  rw [h, takeWhile_run hrun' hstop'] at hfront
  rw [h, dropWhile_run hrun' hstop'] at hback
  exact ⟨hfront.symm, hback.symm⟩

/-! ## Trimming -/

theorem stops_dropWhile (s : List Char) : Stops p (s.dropWhile p) := by
  intro c hc
  have h := List.head?_dropWhile_not p s
  rw [hc] at h
  simpa using h

theorem dropBack_append (s : List Char) : s = dropBack p s ++ (s.reverse.takeWhile p).reverse := by
  rw [dropBack, ← List.reverse_append, List.takeWhile_append_dropWhile, List.reverse_reverse]

/-- What is trimmed off is of the kind, and what is left neither starts nor ends with it. -/
theorem trimBy_spec (s : List Char) : ∃ front back, s = front ++ trimBy p s ++ back ∧
    (∀ c ∈ front ++ back, p c = true) ∧ Stops p (trimBy p s) ∧ Stops p (trimBy p s).reverse := by
  have hback := dropBack_append (p := p) (s.dropWhile p)
  refine ⟨s.takeWhile p, ((s.dropWhile p).reverse.takeWhile p).reverse, ?_, ?_, ?_, ?_⟩
  · rw [trimBy, List.append_assoc, ← hback, List.takeWhile_append_dropWhile]
  · intro c hc
    rcases List.mem_append.1 hc with hc | hc
    · exact List.all_eq_true.1 List.all_takeWhile c hc
    · exact List.all_eq_true.1 List.all_takeWhile c (List.mem_reverse.1 hc)
  · intro c hc
    apply stops_dropWhile s c
    rw [hback, List.head?_append]
    exact Option.or_eq_some_iff.2 (.inl hc)
  · rw [trimBy, dropBack, List.reverse_reverse]
    exact stops_dropWhile _

/-- What stands between two runs of the kind, neither of which it goes on with, is left by trimming. -/
theorem trimBy_append {front core back : List Char} (hfront : ∀ c ∈ front, p c = true)
    (hback : ∀ c ∈ back, p c = true) (hfirst : Stops p core) (hlast : Stops p core.reverse) :
    trimBy p (front ++ core ++ back) = core := by
  cases core with
  | nil =>
    have hall : ∀ c ∈ front ++ [] ++ back, p c = true := by
      intro c hc
      rw [List.append_nil] at hc
      exact (List.mem_append.1 hc).elim (hfront c) (hback c)
    have hdrop := dropWhile_run hall (stops_nil p)
    rw [List.append_nil] at hdrop
    rw [trimBy, hdrop]
    rfl
  | cons c core =>
    have hstop : Stops p (c :: core ++ back) := stops_cons (hfirst c rfl) (core ++ back)
    have hrun : ∀ d ∈ back.reverse, p d = true := fun d hd => hback d (List.mem_reverse.1 hd)
    rw [trimBy, List.append_assoc, dropWhile_run hfront hstop, dropBack, List.reverse_append,
      dropWhile_run hrun hlast, List.reverse_reverse]

/-- Nothing is dropped from the back exactly where the last element is to stay. -/
theorem dropBack_eq_self_iff {α : Type} {p : α → Bool} {s : List α} :
    dropBack p s = s ↔ ∀ a, s.getLast? = some a → p a = false := by
  rcases List.eq_nil_or_concat s with rfl | ⟨front, last, rfl⟩
  · simp [dropBack]
  rw [List.concat_eq_append, List.getLast?_concat]
  cases hlast : p last with
  | false => simp [dropBack, hlast]
  | true =>
    refine iff_of_false (fun h => ?_) fun h => nomatch hlast.symm.trans (h last rfl)
    have hdropped : dropBack p (front ++ [last]) = dropBack p front := by simp [dropBack, hlast]
    have hle : (dropBack p front).length ≤ front.length := by
      rw [dropBack, List.length_reverse, ← front.length_reverse]
      exact (List.dropWhile_suffix p).length_le
    have hlength := congrArg List.length (hdropped.symm.trans h)
    rw [List.length_append, List.length_singleton] at hlength
    omega

/-! ## Joining and splitting -/

/-- What stands in joined parts stands in one of them, unless it is the mark between them. -/
theorem mem_intercalate {c x : Char} {parts : List (List Char)} (hc : c ∈ [x].intercalate parts) :
    c = x ∨ ∃ part ∈ parts, c ∈ part := by
  induction parts with
  | nil => exact nomatch hc
  | cons part parts ih =>
    cases parts with
    | nil =>
      rw [List.intercalate_singleton] at hc
      exact .inr ⟨part, List.mem_cons_self, hc⟩
    | cons next parts =>
      rw [List.intercalate_cons_cons, List.mem_append, List.mem_append, List.mem_singleton] at hc
      rcases hc with (hc | rfl) | hc
      · exact .inr ⟨part, List.mem_cons_self, hc⟩
      · exact .inl rfl
      · exact (ih hc).imp_right fun ⟨found, hfound, h⟩ => ⟨found, List.mem_cons_of_mem _ hfound, h⟩

theorem mem_intercalate_of_mem {x c : Char} {parts : List (List Char)} {part : List Char}
    (hpart : part ∈ parts) (hc : c ∈ part) : c ∈ [x].intercalate parts := by
  induction parts with
  | nil => exact nomatch hpart
  | cons first parts ih =>
    cases parts with
    | nil =>
      rw [List.intercalate_singleton, ← List.mem_singleton.1 hpart]
      exact hc
    | cons second parts =>
      rw [List.intercalate_cons_cons, List.append_assoc, List.mem_append]
      rcases List.mem_cons.1 hpart with rfl | hpart
      · exact .inl hc
      · exact .inr (List.mem_append_right _ (ih hpart))

theorem mem_of_mem_splitOn {x c : Char} {s part : List Char} (hpart : part ∈ s.splitOn x) (hc : c ∈ part) :
    c ∈ s := by
  have h := mem_intercalate_of_mem (x := x) hpart hc
  rwa [List.intercalate_splitOn] at h

/-- Separators in front of a text do not change its parts. -/
theorem mem_splitOn_append_left {x : Char} {front s part : List Char} (hfront : ∀ c ∈ front, c = x)
    (h : part ∈ s.splitOn x) : part ∈ (front ++ s).splitOn x := by
  induction front with
  | nil => exact h
  | cons c front ih =>
    obtain rfl := hfront c List.mem_cons_self
    have hcut := List.splitOn_append_cons_self (a := c) [] (front ++ s)
    rw [List.nil_append] at hcut
    rw [List.cons_append, hcut]
    exact List.mem_append_right _ (ih fun d hd => hfront d (List.mem_cons_of_mem _ hd))

theorem mem_splitOn_append_right {x : Char} {s back part : List Char} (hback : ∀ c ∈ back, c = x)
    (h : part ∈ s.splitOn x) : part ∈ (s ++ back).splitOn x := by
  cases back with
  | nil => rwa [List.append_nil]
  | cons c back =>
    obtain rfl := hback c List.mem_cons_self
    rw [List.splitOn_append_cons_self]
    exact List.mem_append_left _ h

/-! ## First occurrences -/

theorem not_mem_iff_beq {α : Type} [BEq α] [LawfulBEq α] {a : α} {s : List α} : a ∉ s ↔ ∀ b ∈ s, (b == a) = false := by
  simp only [beq_eq_false_iff_ne]
  exact ⟨fun h b hb he => h (he ▸ hb), fun h hb => h _ hb rfl⟩

theorem cutAt?_append {α : Type} {p : α → Bool} {a : α} {s rest : List α} (hs : ∀ b ∈ s, p b = false)
    (ha : p a = true) : cutAt? p (s ++ a :: rest) = some (s, rest) := by
  have hrun : ∀ b ∈ s, (!p b) = true := by
    intro b hb
    rw [hs b hb]
    rfl
  rw [cutAt?, List.dropWhile_append_of_pos hrun, List.takeWhile_append_of_pos hrun]
  simp [ha]

theorem cutAt?_eq_none_iff {α : Type} {p : α → Bool} {s : List α} : cutAt? p s = none ↔ ∀ a ∈ s, p a = false := by
  have hnil : s.dropWhile (fun a => !p a) = [] ↔ ∀ a ∈ s, p a = false := by
    induction s with
    | nil => simp
    | cons a s ih => cases ha : p a <;> simp [ha, ih]
  rw [← hnil, cutAt?]
  split <;> simp_all

section First

variable {α : Type} [BEq α] [LawfulBEq α]

theorem dropLead?_eq_none {lead s : List α} (h : ¬ lead <+: s) : dropLead? lead s = none := by
  cases hdrop : dropLead? lead s with
  | none => rfl
  | some rest => exact absurd ⟨rest, (dropLead?_eq_some_iff.1 hdrop).symm⟩ h

theorem dropLead?_append_append (s lead rest : List α) :
    dropLead? (s ++ lead) (s ++ rest) = dropLead? lead rest := by
  refine Option.ext fun left => ?_
  rw [dropLead?_eq_some_iff, dropLead?_eq_some_iff, List.append_assoc, List.append_right_inj]

/-- A text without an element of the lead does not start with it. -/
theorem dropLead?_of_not_mem {a : α} {lead s : List α} (ha : a ∈ lead) (h : a ∉ s) : dropLead? lead s = none :=
  dropLead?_eq_none fun hlead => h (hlead.mem ha)

theorem startsWith_eq_false {a : α} {lead s : List α} (ha : a ∈ lead) (h : a ∉ s) : startsWith lead s = false := by
  rw [startsWith, dropLead?_of_not_mem ha h, Option.isSome_none]

/-- A text is cut around the occurrence of a pattern before which it does not occur. -/
theorem cutAroundFrom?_append {pattern done s rest : List α}
    (h : ∀ t, t <:+ s → t ≠ [] → ¬ pattern <+: t ++ (pattern ++ rest)) :
    cutAroundFrom? pattern done (s ++ (pattern ++ rest)) = some (done.reverse ++ s, rest) := by
  induction s generalizing done with
  | nil =>
    unfold cutAroundFrom?
    rw [List.nil_append, dropLead?_append, List.append_nil]
  | cons a s ih =>
    have hnone := dropLead?_eq_none (h (a :: s) List.suffix_rfl (List.cons_ne_nil a s))
    rw [List.cons_append] at hnone ⊢
    unfold cutAroundFrom?
    rw [hnone]
    dsimp only
    rw [ih fun t ht => h t (ht.trans (List.suffix_cons a s)), List.reverse_cons, List.append_assoc]
    rfl

theorem cutAround?_append {pattern s rest : List α}
    (h : ∀ t, t <:+ s → t ≠ [] → ¬ pattern <+: t ++ (pattern ++ rest)) :
    cutAround? pattern (s ++ (pattern ++ rest)) = some (s, rest) :=
  cutAroundFrom?_append h

theorem cutAround?_of_not_mem {a : α} {p s rest : List α} (h : a ∉ s) :
    cutAround? (a :: p) (s ++ (a :: p ++ rest)) = some (s, rest) := by
  apply cutAround?_append
  intro t ht hne hprefix
  cases t with
  | nil => exact hne rfl
  | cons b t =>
    obtain rfl := (List.cons_prefix_cons.1 hprefix).1
    exact h (ht.mem List.mem_cons_self)

/-- Where the first element of a pattern comes only once in it, no occurrence of the pattern reaches into another one:
the first one behind a text is the first one of all, unless the text itself has one. -/
theorem cutAround?_of_not_infix {a : α} {p s rest : List α} (ha : a ∉ p) (h : ¬ a :: p <:+: s) :
    cutAround? (a :: p) (s ++ (a :: p ++ rest)) = some (s, rest) := by
  apply cutAround?_append
  intro t ht hne ⟨after, hafter⟩
  rcases List.append_eq_append_iff.1 hafter with ⟨front, rfl, -⟩ | ⟨back, hback, hrest⟩
  · exact h ((List.prefix_append _ front).isInfix.trans ht.isInfix)
  · cases t with
    | nil => exact hne rfl
    | cons b t =>
      obtain ⟨rfl, hp⟩ := List.cons.inj hback
      cases back with
      | nil =>
        obtain rfl : p = t := hp.trans (List.append_nil t)
        exact h ht.isInfix
      | cons c back =>
        obtain rfl := (List.cons.inj hrest).1
        rw [hp] at ha
        exact ha (List.mem_append_right t List.mem_cons_self)

end First

/-- A lead that starts with a run of a kind and goes on with something else is taken off where the same run stands. -/
theorem dropLead?_run {run run' lead rest : List Char} {c : Char} (hrun : ∀ d ∈ run, p d = true)
    (hrun' : ∀ d ∈ run', p d = true) (hc : p c = false) (hstop : Stops p rest) :
    dropLead? (run ++ c :: lead) (run' ++ rest) = if run = run' then dropLead? (c :: lead) rest else none := by
  split
  · rename_i hsame
    rw [hsame, dropLead?_append_append]
  · rename_i hother
    refine dropLead?_eq_none fun ⟨left, hleft⟩ => hother ?_
    rw [List.append_assoc, List.cons_append] at hleft
    exact (run_append_inj hrun hrun' (stops_cons hc _) hstop hleft).1

end Speedtest.Text
