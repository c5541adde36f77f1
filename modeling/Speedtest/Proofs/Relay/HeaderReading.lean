import Speedtest.Relay.Reading

/-!
# What a stream comes to is a function of its bytes

`Settles` says which bytes decide the outcome of reading a header and what it is, with no mention of loops or
chunks. Each loop of the reader stops at bytes that extend what was gathered before, and more bytes behind
them change nothing but the payload; so a stream comes to what its bytes settle, however they are cut. Where
they settle nothing the end of the stream decides, and on a silent stream the reader does not come back.
-/
namespace Speedtest.Relay

def lineEnd : Bytes := [0x0D, 0x0A]

/-- `line` stands before the first line end of `s`, and `rest` behind it. -/
structure FirstLine (s line rest : Bytes) : Prop where
  split : s = line ++ lineEnd ++ rest
  first : ∀ a b, s = a ++ lineEnd ++ b → line.length ≤ a.length

/-- No line end lies within the first `limit` bytes. -/
def NoLineWithin (limit : Nat) (s : Bytes) : Prop :=
  ∀ a b, s = a ++ lineEnd ++ b → limit < a.length + 2

/-- Which bytes settle what a stream comes to, whatever it hands over behind them or how it ends. -/
inductive Settles : Bytes → Outcome → Prop where
  /-- A line that ends within the limit. -/
  | line {s line rest : Bytes} (lead : TextForm.signature <+: s) (cut : FirstLine s line rest)
      (fits : line.length + 2 ≤ TextForm.maxLength) : Settles s (ofLine line rest)
  /-- A line that does not. -/
  | tooLong {s : Bytes} (lead : TextForm.signature <+: s) (long : TextForm.maxLength ≤ s.length)
      (endless : NoLineWithin TextForm.maxLength s) : Settles s (.error (.badText .tooLong))
  /-- A header in binary form that is there as a whole. -/
  | binary {s : Bytes} (lead : BinaryForm.signature <+: s) (whole : headerLength s ≤ s.length) :
      Settles s (ofWhole (s.take (headerLength s)) (s.drop (headerLength s)))
  /-- Bytes that are not the start of a header. -/
  | plain {s : Bytes} (noText : ¬ TextForm.signature <+: s ∧ ¬ s <+: TextForm.signature)
      (noBinary : ¬ BinaryForm.signature <+: s ∧ ¬ s <+: BinaryForm.signature) :
      Settles s (.ok (none, s))

/-- What a stream comes to when its bytes settle nothing. -/
def unsettled (s : Bytes) : Ending → Option Outcome
  | .closed => some (if s = [] then .ok (none, []) else .error .truncated)
  | .failure reason => some (.error (.unreadable reason))
  | .silence => none

/-! ## Lines -/

theorem append_lineEnd_cons {b : UInt8} {s a c : Bytes} (h : b :: s = a ++ lineEnd ++ c) :
    (a = [] ∧ b = 0x0D ∧ s = 0x0A :: c) ∨ ∃ a', a = b :: a' ∧ s = a' ++ lineEnd ++ c := by
  cases a with
  | nil =>
    left
    simpa [lineEnd] using h
  | cons x a =>
    right
    obtain ⟨rfl, hs⟩ := List.cons.inj h
    exact ⟨a, rfl, hs⟩

/-- A line that is cut is the first one and keeps within the limit. -/
theorem cutLine?_eq_some {limit : Nat} {s line rest : Bytes}
    (h : cutLine? limit s = some (line, rest)) :
    FirstLine s line rest ∧ line.length + 2 ≤ limit := by
  fun_induction cutLine? limit s generalizing line rest with
  | case1 limit s =>
    obtain ⟨rfl, rfl⟩ := Prod.mk.inj (Option.some.inj h)
    exact ⟨⟨rfl, fun _ _ _ => Nat.zero_le _⟩, by simp⟩
  | case2 limit b s hno ih =>
    obtain ⟨⟨line, rest⟩, hcut, heq⟩ := Option.map_eq_some_iff.1 h
    obtain ⟨rfl, rfl⟩ := Prod.mk.inj heq
    obtain ⟨⟨hsplit, hfirst⟩, hfits⟩ := ih hcut
    refine ⟨⟨by rw [hsplit]; rfl, ?_⟩, by simp only [List.length_cons]; omega⟩
    intro a c hac
    rcases append_lineEnd_cons hac with ⟨rfl, rfl, rfl⟩ | ⟨a', rfl, hs⟩
    · -- A line end in front would have been taken.
      cases limit with
      | zero => simp [cutLine?] at hcut
      | succ n => exact absurd rfl (hno n c rfl rfl)
    · simpa using hfirst a' c hs
  | case3 => simp at h

/-- Where no line is cut, there is none within the limit. -/
theorem cutLine?_eq_none {limit : Nat} {s : Bytes} (h : cutLine? limit s = none) :
    NoLineWithin limit s := by
  fun_induction cutLine? limit s with
  | case1 => simp at h
  | case2 limit b s hno ih =>
    intro a c hac
    rcases append_lineEnd_cons hac with ⟨rfl, rfl, rfl⟩ | ⟨a', rfl, hs⟩
    · cases limit with
      | zero => simp
      | succ n => exact absurd rfl (hno n c rfl rfl)
    · have := ih (Option.map_eq_none_iff.1 h) a' c hs
      simp only [List.length_cons]
      omega
  | case3 limit s hno hstop =>
    intro a c hac
    cases limit with
    | zero => omega
    | succ n =>
      cases s with
      | nil => simp [lineEnd] at hac
      | cons b s => exact absurd rfl (hstop n b s rfl)

/-- A line end that starts early enough stands in front of whatever follows. -/
theorem lineEnd_within {s more a b : Bytes} (h : s ++ more = a ++ lineEnd ++ b)
    (hlen : a.length + 2 ≤ s.length) : s = a ++ lineEnd ++ s.drop (a.length + 2) := by
  have htake := congrArg (List.take (a.length + 2)) h
  rw [List.take_append_of_le_length hlen, List.take_left' (by simp [lineEnd])] at htake
  rw [← htake, List.take_append_drop]

theorem FirstLine.append {s line rest : Bytes} (h : FirstLine s line rest) (more : Bytes) :
    FirstLine (s ++ more) line (rest ++ more) := by
  refine ⟨by rw [h.split]; simp only [List.append_assoc], ?_⟩
  intro a b hab
  rcases Nat.lt_or_ge a.length line.length with hlt | hle
  · have hlen : a.length + 2 ≤ s.length := by
      rw [h.split]
      simp only [List.length_append, lineEnd, List.length_cons, List.length_nil]
      omega
    exact h.first _ _ (lineEnd_within hab hlen)
  · exact hle

theorem FirstLine.unique {s line rest line' rest' : Bytes} (h : FirstLine s line rest)
    (h' : FirstLine s line' rest') : line = line' ∧ rest = rest' := by
  have hlen : line.length = line'.length :=
    Nat.le_antisymm (h.first _ _ h'.split) (h'.first _ _ h.split)
  have hs := h.split.symm.trans h'.split
  rw [List.append_assoc, List.append_assoc] at hs
  obtain ⟨hline, hrest⟩ := List.append_inj hs hlen
  exact ⟨hline, List.append_cancel_left hrest⟩

theorem NoLineWithin.append {limit : Nat} {s : Bytes} (h : NoLineWithin limit s)
    (long : limit ≤ s.length) (more : Bytes) : NoLineWithin limit (s ++ more) := by
  intro a b hab
  rcases Nat.lt_or_ge limit (a.length + 2) with hlt | hle
  · exact hlt
  · exact h _ _ (lineEnd_within hab (Nat.le_trans hle long))

/-! ## Leads -/

theorem startsWith_eq (lead s : Bytes) : Text.startsWith lead s = true ↔ lead <+: s := by
  rw [Text.startsWith_iff]
  exact exists_congr fun _ => eq_comm

theorem mayBecome_iff {lead s : Bytes} (h : ¬ lead <+: s) : mayBecome lead s = true ↔ s <+: lead := by
  rw [mayBecome, Bool.and_eq_true, startsWith_eq, decide_eq_true_eq, and_iff_right_iff_imp]
  intro hs
  rcases Nat.lt_or_ge s.length lead.length with hlt | hle
  · exact hlt
  · exact absurd (hs.eq_of_length_le hle ▸ List.prefix_rfl) h

theorem not_binary_of_text {s : Bytes} (h : TextForm.signature <+: s) :
    ¬ BinaryForm.signature <+: s := by
  intro hb
  have hlen : TextForm.signature.length ≤ BinaryForm.signature.length := by decide
  exact absurd (List.prefix_of_prefix_length_le h hb hlen) (by decide)

/-- What bytes say about the form of the header. -/
theorem detect_cases (s : Bytes) :
    (detect s = .text ∧ TextForm.signature <+: s) ∨
    (detect s = .binary ∧ BinaryForm.signature <+: s) ∨
    (detect s = .undecided ∧ (¬ TextForm.signature <+: s ∧ ¬ BinaryForm.signature <+: s) ∧
      (s <+: TextForm.signature ∨ s <+: BinaryForm.signature)) ∨
    (detect s = .absent ∧ (¬ TextForm.signature <+: s ∧ ¬ s <+: TextForm.signature) ∧
      ¬ BinaryForm.signature <+: s ∧ ¬ s <+: BinaryForm.signature) := by
  by_cases ht : TextForm.signature <+: s
  · exact .inl ⟨by simp [detect, startsWith_eq, ht], ht⟩
  by_cases hb : BinaryForm.signature <+: s
  · exact .inr (.inl ⟨by simp [detect, startsWith_eq, ht, hb], hb⟩)
  by_cases hu : s <+: TextForm.signature ∨ s <+: BinaryForm.signature
  · refine .inr (.inr (.inl ⟨?_, ⟨ht, hb⟩, hu⟩))
    simp [detect, startsWith_eq, mayBecome_iff, ht, hb, hu]
  · refine .inr (.inr (.inr ⟨?_, ⟨ht, fun h => hu (.inl h)⟩, hb, fun h => hu (.inr h)⟩))
    simp [detect, startsWith_eq, mayBecome_iff, ht, hb, hu]

/-! ## What bytes settle -/

/-- Bytes settle one outcome at most. -/
theorem Settles.unique {s : Bytes} {o o' : Outcome} (h : Settles s o) (h' : Settles s o') :
    o = o' := by
  cases h with
  | line lead cut fits =>
    cases h' with
    | line _ cut' _ => obtain ⟨rfl, rfl⟩ := cut.unique cut'; rfl
    | tooLong _ _ endless => have := endless _ _ cut.split; omega
    | binary lead' _ => exact absurd lead' (not_binary_of_text lead)
    | plain noText _ => exact absurd lead noText.1
  | tooLong lead long endless =>
    cases h' with
    | line _ cut fits => have := endless _ _ cut.split; omega
    | tooLong => rfl
    | binary lead' _ => exact absurd lead' (not_binary_of_text lead)
    | plain noText _ => exact absurd lead noText.1
  | binary lead whole =>
    cases h' with
    | line lead' _ _ => exact absurd lead (not_binary_of_text lead')
    | tooLong lead' _ _ => exact absurd lead (not_binary_of_text lead')
    | binary => rfl
    | plain _ noBinary => exact absurd lead noBinary.1
  | plain noText noBinary =>
    cases h' with
    | line lead _ _ => exact absurd lead noText.1
    | tooLong lead _ _ => exact absurd lead noText.1
    | binary lead _ => exact absurd lead noBinary.1
    | plain => rfl

/-- Bytes of a stream that ends in this way come to this. -/
def Answers (s : Bytes) (ending : Ending) (r : Option Outcome) : Prop :=
  (∃ o, Settles s o ∧ r = some o) ∨ ((∀ o, ¬ Settles s o) ∧ r = unsettled s ending)

/-! ## Loops -/

/-- A loop stops at bytes that answer its question, or goes through the whole stream without an answer. -/
theorem gather_cases {α : Type} (answer? : Bytes → Option α) (atEnd : Bytes → Except HeaderError α)
    (ending : Ending) (gathered : Bytes) (chunks : List Bytes) :
    (∃ front a back, gathered <+: front ∧ front ++ back.flatten = gathered ++ chunks.flatten ∧
      answer? front = some a ∧ gather answer? atEnd ending gathered chunks = pure (a, back)) ∨
    (answer? (gathered ++ chunks.flatten) = none ∧ gather answer? atEnd ending gathered chunks =
      (·, []) <$> ranOut (atEnd (gathered ++ chunks.flatten)) ending) := by
  induction chunks generalizing gathered with
  | nil =>
    rw [List.flatten_nil, List.append_nil]
    cases h : answer? gathered with
    | some a => exact .inl ⟨gathered, a, [], List.prefix_rfl, by simp, h, by rw [gather, h]⟩
    | none => exact .inr ⟨rfl, by rw [gather, h]⟩
  | cons chunk chunks ih =>
    cases h : answer? gathered with
    | some a =>
      exact .inl ⟨gathered, a, chunk :: chunks, List.prefix_rfl, rfl, h, by rw [gather, h]⟩
    | none =>
      have hstep : gather answer? atEnd ending gathered (chunk :: chunks) =
          gather answer? atEnd ending (gathered ++ chunk) chunks := by rw [gather, h]
      have hbytes : gathered ++ (chunk :: chunks).flatten = gathered ++ chunk ++ chunks.flatten := by
        rw [List.flatten_cons, List.append_assoc]
      rw [hstep, hbytes]
      rcases ih (gathered ++ chunk) with ⟨front, a, back, hpre, hwhole, ha, hg⟩ | hover
      · exact .inl ⟨front, a, back, (List.prefix_append _ _).trans hpre, hwhole, ha, hg⟩
      · exact .inr hover

/-- What reading comes to, with all the bytes behind the header. -/
def whole (r : Awaited ((Option Header × Bytes) × List Bytes)) : Option Outcome :=
  r.run.map (Except.map fun ((h, rest), chunks) => (h, rest ++ chunks.flatten))

theorem whole_ofLine (line rest : Bytes) (chunks : List Bytes) :
    whole ((·, chunks) <$> ExceptT.mk (some (ofLine line rest))) =
      some (ofLine line (rest ++ chunks.flatten)) := by
  unfold ofLine
  cases TextForm.read line <;> rfl

theorem whole_ofWhole (header rest : Bytes) (chunks : List Bytes) :
    whole ((·, chunks) <$> ExceptT.mk (some (ofWhole header rest))) =
      some (ofWhole header (rest ++ chunks.flatten)) := by
  unfold ofWhole
  cases BinaryForm.read header <;> rfl

/-- The search for a line is over with the first line, or once the limit is reached without one. -/
theorem lineOf?_eq_some {s : Bytes} {a : Except TextFault (Bytes × Bytes)} (h : lineOf? s = some a) :
    (∃ line rest, a = .ok (line, rest) ∧ FirstLine s line rest ∧
      line.length + 2 ≤ TextForm.maxLength) ∨
    (a = .error .tooLong ∧ TextForm.maxLength ≤ s.length ∧ NoLineWithin TextForm.maxLength s) := by
  unfold lineOf? at h
  split at h
  · rename_i cut hcut
    obtain ⟨hfirst, hfits⟩ := cutLine?_eq_some hcut
    exact .inl ⟨cut.1, cut.2, (Option.some.inj h).symm, hfirst, hfits⟩
  · rename_i hcut
    split at h
    · rename_i hlong
      exact .inr ⟨(Option.some.inj h).symm, hlong, cutLine?_eq_none hcut⟩
    · simp at h

theorem lineOf?_eq_none {s : Bytes} (h : lineOf? s = none) :
    s.length < TextForm.maxLength ∧ NoLineWithin TextForm.maxLength s := by
  unfold lineOf? at h
  split at h
  · simp at h
  · rename_i hcut
    split at h
    · simp at h
    · rename_i hshort
      exact ⟨Nat.lt_of_not_le hshort, cutLine?_eq_none hcut⟩

theorem enough?_eq_some {length : Nat} {s t : Bytes} (h : enough? length s = some t) :
    t = s ∧ length ≤ s.length := by
  unfold enough? at h
  split at h
  · rename_i hle
    exact ⟨(Option.some.inj h).symm, hle⟩
  · simp at h

theorem enough?_eq_none {length : Nat} {s : Bytes} (h : enough? length s = none) :
    s.length < length := by
  unfold enough? at h
  split at h
  · simp at h
  · rename_i hlt
    exact Nat.lt_of_not_le hlt

/-- The fixed part tells the length, whatever stands behind it. -/
theorem headerLength_of_prefix {s t : Bytes} (h : s <+: t) (hs : BinaryForm.fixedLength ≤ s.length) :
    headerLength t = headerLength s := by
  obtain ⟨more, rfl⟩ := h
  have hs : 16 ≤ s.length := hs
  unfold headerLength BinaryForm.bodyLength
  rw [List.drop_append_of_le_length (by omega),
    List.take_append_of_le_length (by rw [List.length_drop]; omega)]

theorem fixedLength_le_headerLength (s : Bytes) : BinaryForm.fixedLength ≤ headerLength s :=
  Nat.le_add_right _ _

/-- Bytes that settle nothing although a loop was entered end as the stream does. -/
theorem answers_cutShort {s : Bytes} (hne : s ≠ []) (h : ∀ o, ¬ Settles s o) (ending : Ending)
    {α : Type} {f : α → Awaited ((Option Header × Bytes) × List Bytes)} :
    Answers s ending (whole (ranOut (cutShort s) ending >>= f)) := by
  refine .inr ⟨h, ?_⟩
  cases ending with
  | closed => simp only [unsettled, hne, if_false]; rfl
  | failure reason => rfl
  | silence => rfl

/-- Reading a line comes to what the bytes and the ending say, wherever the chunks are cut. -/
theorem answers_readText {ending : Ending} {gathered : Bytes} {chunks : List Bytes}
    (lead : TextForm.signature <+: gathered) :
    Answers (gathered ++ chunks.flatten) ending (whole (readText ending gathered chunks)) := by
  unfold readText
  rcases gather_cases lineOf? cutShort ending gathered chunks with
    ⟨front, a, back, hpre, hbytes, ha, hg⟩ | ⟨hnone, hg⟩
  · have hlead : TextForm.signature <+: front ++ back.flatten :=
      (lead.trans hpre).trans (List.prefix_append _ _)
    rw [hg, pure_bind, ← hbytes]
    rcases lineOf?_eq_some ha with ⟨line, rest, rfl, hfirst, hfits⟩ | ⟨rfl, hlong, hno⟩
    · exact .inl ⟨_, .line hlead (hfirst.append _) hfits, whole_ofLine _ _ _⟩
    · refine .inl ⟨_, .tooLong hlead ?_ (hno.append hlong _), rfl⟩
      rw [List.length_append]
      omega
  · have hlead : TextForm.signature <+: gathered ++ chunks.flatten :=
      lead.trans (List.prefix_append _ _)
    obtain ⟨hshort, hno⟩ := lineOf?_eq_none hnone
    rw [hg, bind_map_left]
    refine answers_cutShort (hlead.ne_nil (by decide)) (fun o ho => ?_) ending
    cases ho with
    | line _ cut fits => have := hno _ _ cut.split; omega
    | tooLong _ long _ => omega
    | binary lead' _ => exact not_binary_of_text hlead lead'
    | plain noText _ => exact noText.1 hlead

/-- A header in binary form that is not there as a whole settles nothing. -/
theorem not_settles_of_short {s : Bytes} (lead : BinaryForm.signature <+: s)
    (short : s.length < headerLength s) (o : Outcome) : ¬ Settles s o := by
  intro h
  cases h with
  | line lead' _ _ => exact not_binary_of_text lead' lead
  | tooLong lead' _ _ => exact not_binary_of_text lead' lead
  | binary _ enough => omega
  | plain _ noBinary => exact noBinary.1 lead

/-- Reading a binary header comes to what the bytes and the ending say, wherever the chunks are cut. -/
theorem answers_readBinary {ending : Ending} {gathered : Bytes} {chunks : List Bytes}
    (lead : BinaryForm.signature <+: gathered) :
    Answers (gathered ++ chunks.flatten) ending (whole (readBinary ending gathered chunks)) := by
  have hlead : BinaryForm.signature <+: gathered ++ chunks.flatten :=
    lead.trans (List.prefix_append _ _)
  have hne : gathered ++ chunks.flatten ≠ [] := hlead.ne_nil (by decide)
  unfold readBinary
  rcases gather_cases (enough? BinaryForm.fixedLength) cutShort ending gathered chunks with
    ⟨front, s, back, hpre, hbytes, hs, hg⟩ | ⟨hnone, hg⟩
  · obtain ⟨rfl, hfixed⟩ := enough?_eq_some hs
    -- Wherever the first loop stopped, it has the length that the whole stream tells.
    rw [hg, pure_bind]
    rw [← hbytes] at hlead hne ⊢
    have hlength : headerLength (s ++ back.flatten) = headerLength s :=
      headerLength_of_prefix (List.prefix_append _ _) hfixed
    rcases gather_cases (enough? (headerLength s)) cutShort ending s back with
      ⟨front, t, back', hpre', hbytes', ht, hg'⟩ | ⟨hnone, hg'⟩
    · obtain ⟨rfl, henough⟩ := enough?_eq_some ht
      simp only [hg', pure_bind]
      have hset : Settles (s ++ back.flatten) (ofWhole (t.take (headerLength s))
          (t.drop (headerLength s) ++ back'.flatten)) := by
        have h := Settles.binary hlead (by rw [hlength, ← hbytes', List.length_append]; omega)
        rw [hlength, ← hbytes', List.take_append_of_le_length henough,
          List.drop_append_of_le_length henough, hbytes'] at h
        exact h
      exact .inl ⟨_, hset, whole_ofWhole _ _ _⟩
    · have hshort := enough?_eq_none hnone
      simp only [hg', bind_map_left]
      exact answers_cutShort hne (not_settles_of_short hlead (by omega)) ending
  · have hshort := enough?_eq_none hnone
    have hle := fixedLength_le_headerLength (gathered ++ chunks.flatten)
    rw [hg, bind_map_left]
    exact answers_cutShort hne (not_settles_of_short hlead (by omega)) ending

theorem leadOf?_eq_some {s t : Bytes} {lead : Lead} (h : leadOf? s = some (lead, t)) :
    detect s = lead ∧ lead ≠ .undecided ∧ t = s := by
  unfold leadOf? at h
  split at h
  · simp at h
  · rename_i hne
    obtain ⟨rfl, rfl⟩ := Prod.mk.inj (Option.some.inj h)
    exact ⟨rfl, hne, rfl⟩

theorem leadOf?_eq_none {s : Bytes} (h : leadOf? s = none) : detect s = .undecided := by
  unfold leadOf? at h
  split at h
  · assumption
  · simp at h

/-- Bytes that start no header start none when more bytes come behind them. -/
theorem not_prefix_append {sig s : Bytes} (h : ¬ sig <+: s ∧ ¬ s <+: sig) (more : Bytes) :
    ¬ sig <+: s ++ more ∧ ¬ s ++ more <+: sig := by
  refine ⟨fun hsig => ?_, fun hs => h.2 ((List.prefix_append _ _).trans hs)⟩
  rcases List.prefix_or_prefix_of_prefix hsig (List.prefix_append s more) with h1 | h1
  · exact h.1 h1
  · exact h.2 h1

/-- Reading the front of a stream comes to what its bytes and its ending say. -/
theorem answers_await (f : Feed) : Answers f.bytes f.ending (whole (await f)) := by
  unfold await
  rcases gather_cases leadOf? leadAtEnd f.ending [] f.chunks with
    ⟨front, ⟨lead, s⟩, back, -, hbytes, hs, hg⟩ | ⟨hnone, hg⟩
  · obtain ⟨hdetect, hdecided, rfl⟩ := leadOf?_eq_some hs
    have hwhole : f.bytes = s ++ back.flatten := hbytes.symm
    rw [hg, pure_bind, hwhole]
    rcases detect_cases s with ⟨h, hlead⟩ | ⟨h, hlead⟩ | ⟨h, -⟩ | ⟨h, hplain⟩
    · obtain rfl := h.symm.trans hdetect
      exact answers_readText hlead
    · obtain rfl := h.symm.trans hdetect
      exact answers_readBinary hlead
    · exact absurd (h.symm.trans hdetect).symm hdecided
    · obtain rfl := h.symm.trans hdetect
      exact .inl ⟨_, .plain (not_prefix_append hplain.1 _) (not_prefix_append hplain.2 _), rfl⟩
  · rw [hg, bind_map_left, List.nil_append]
    have hdetect := leadOf?_eq_none hnone
    rw [List.nil_append] at hdetect
    rcases detect_cases f.bytes with ⟨h, -⟩ | ⟨h, -⟩ | ⟨-, hno, hopen⟩ | ⟨h, -⟩
    · exact absurd (h.symm.trans hdetect) (by decide)
    · exact absurd (h.symm.trans hdetect) (by decide)
    · refine .inr ⟨fun o ho => ?_, ?_⟩
      · cases ho with
        | line lead _ _ => exact hno.1 lead
        | tooLong lead _ _ => exact hno.1 lead
        | binary lead _ => exact hno.2 lead
        | plain noText noBinary => exact hopen.elim noText.2 noBinary.2
      · change whole (ranOut (leadAtEnd f.bytes) f.ending >>= _) = _
        cases f.ending with
        | closed =>
          by_cases hempty : f.bytes = []
          · rw [hempty]; rfl
          · simp only [leadAtEnd, List.isEmpty_iff, hempty, if_false, unsettled]; rfl
        | failure reason => rfl
        | silence => rfl
    · exact absurd (h.symm.trans hdetect) (by decide)

/-! ## Whole streams -/

/-- Within the time that a peer has, reading comes to the same, and the stream left behind the header ends as it
would have ended before. -/
theorem read_of_whole (f : Feed) :
    (read f).map (fun (h, left) => (h, left.bytes)) = (whole (await f)).getD (.error .timeout) ∧
    ∀ h left, read f = .ok (h, left) → left.ending = f.ending := by
  unfold read whole
  rcases (await f).run with _ | e | ⟨⟨h, rest⟩, chunks⟩
  · exact ⟨rfl, fun _ _ hread => nomatch hread⟩
  · exact ⟨rfl, fun _ _ hread => nomatch hread⟩
  · refine ⟨by simp [Except.map, Feed.bytes], fun _ _ hread => ?_⟩
    obtain ⟨-, rfl⟩ := Prod.mk.inj (Except.ok.inj hread)
    rfl

theorem whole_settled (f : Feed) :
    (∀ o, Settles f.bytes o → whole (await f) = some o) ∧
    ((∀ o, ¬ Settles f.bytes o) → whole (await f) = unsettled f.bytes f.ending) := by
  rcases answers_await f with ⟨o, ho, h⟩ | ⟨hno, h⟩
  · exact ⟨fun o' ho' => by rw [h, ho.unique ho'], fun hno => absurd ho (hno o)⟩
  · exact ⟨fun o ho => absurd ho (hno o), fun _ => h⟩

/-- What a stream comes to is the one answer of its bytes and its ending. -/
theorem whole_eq_iff {f : Feed} {r : Option Outcome} : whole (await f) = r ↔ Answers f.bytes f.ending r := by
  constructor
  · rintro rfl
    exact answers_await f
  · rintro (⟨o, ho, rfl⟩ | ⟨hno, rfl⟩)
    · exact (whole_settled f).1 o ho
    · exact (whole_settled f).2 hno

/-- What a stream comes to is a function of its bytes and its ending, and never of how they are cut into chunks:
what the bytes settle, or what the ending makes of bytes that settle nothing. -/
theorem whole_await (f : Feed) :
    (∀ o, Settles f.bytes o → whole (await f) = some o) ∧
    ((∀ o, ¬ Settles f.bytes o) → whole (await f) = unsettled f.bytes f.ending) ∧
    (∀ g : Feed, g.bytes = f.bytes → g.ending = f.ending → whole (await g) = whole (await f)) ∧
    (read f).map (fun (h, left) => (h, left.bytes)) = (whole (await f)).getD (.error .timeout) := by
  obtain ⟨hsettled, hopen⟩ := whole_settled f
  refine ⟨hsettled, hopen, fun g hbytes hending => ?_, (read_of_whole f).1⟩
  rcases answers_await g with ⟨o, ho, h⟩ | ⟨hno, h⟩
  · rw [h, hsettled o (hbytes ▸ ho)]
  · rw [h, hopen (hbytes ▸ hno), hbytes, hending]

/-- A stream that is cut inside the signature, inside the length and inside the ports of its header. -/
def cutInside : Feed :=
  ⟨[[13, 10, 13, 10, 0, 13, 10, 81, 85, 73, 84], [10, 0x21, 0x11, 0],
    [12, 192, 0, 2, 1, 198, 51, 100, 2, 199, 56, 1], [187, 71], [69, 84]], .silence⟩

theorem settles_cutInside : Settles cutInside.bytes
    (.ok (some (.proxied (.v4 ⟨192, 0, 2, 1⟩ 51000 ⟨198, 51, 100, 2⟩ 443)), [71, 69, 84])) := by
  have hread : ofWhole (cutInside.bytes.take (headerLength cutInside.bytes))
      (cutInside.bytes.drop (headerLength cutInside.bytes)) =
      .ok (some (.proxied (.v4 ⟨192, 0, 2, 1⟩ 51000 ⟨198, 51, 100, 2⟩ 443)), [71, 69, 84]) := by cbv
  have h := Settles.binary (s := cutInside.bytes) (by decide) (by decide)
  rwa [hread] at h

theorem whole_await_cutInside :
    Settles cutInside.bytes
      (.ok (some (.proxied (.v4 ⟨192, 0, 2, 1⟩ 51000 ⟨198, 51, 100, 2⟩ 443)), [71, 69, 84])) ∧
    whole (await cutInside) =
      some (.ok (some (.proxied (.v4 ⟨192, 0, 2, 1⟩ 51000 ⟨198, 51, 100, 2⟩ 443)), [71, 69, 84])) :=
  ⟨settles_cutInside, (whole_await cutInside).1 _ settles_cutInside⟩

end Speedtest.Relay
