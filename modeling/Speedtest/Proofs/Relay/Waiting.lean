import Speedtest.Proofs.Relay.HeaderReading
import Speedtest.Relay.Noted

/-!
# Reading on only for what is open

`Open` says which bytes leave it open what a header comes to: the start of a signature, a line without its end, and a
header in binary form that is not there as a whole. The reader goes to the stream for more exactly while what it has
gathered is open. So it comes back with the byte that decides, whatever the stream does behind it, and more bytes only
make the payload longer. Nothing is open for long.
-/
namespace Speedtest.Relay

/-- Bytes that leave it open what a header comes to. -/
inductive Open (s : Bytes) : Prop where
  /-- The start of a header in text form. -/
  | text (start : s <+: TextForm.signature) (part : s ≠ TextForm.signature)
  /-- The start of a header in binary form. -/
  | binary (start : s <+: BinaryForm.signature) (part : s ≠ BinaryForm.signature)
  /-- A line that has not ended and may still do so within the limit. -/
  | line (lead : TextForm.signature <+: s) (endless : ¬ lineEnd <:+: s) (short : s.length < 107)
  /-- A header in binary form without all of its fixed part. -/
  | fixed (lead : BinaryForm.signature <+: s) (short : s.length < 16)
  /-- A header in binary form without all of the body that it announces. -/
  | body (lead : BinaryForm.signature <+: s) (short : s.length < 16 + BinaryForm.bodyLength s)

/-! ## What is open -/

theorem noLineWithin_iff {limit : Nat} {s : Bytes} (h : s.length ≤ limit) :
    NoLineWithin limit s ↔ ¬ lineEnd <:+: s := by
  constructor
  · rintro hno ⟨a, b, hab⟩
    have hlong := hno a b hab.symm
    have hlength := congrArg List.length hab
    simp only [List.length_append, lineEnd, List.length_cons, List.length_nil] at hlength
    omega
  · intro hno a b hab
    exact absurd ⟨a, b, hab.symm⟩ hno

/-- A stream that starts like a line is open as long as its line is. -/
theorem open_text_iff {s : Bytes} (lead : TextForm.signature <+: s) : Open s ↔ lineOf? s = none := by
  constructor
  · intro h
    have hline : ¬ lineEnd <:+: s ∧ s.length < TextForm.maxLength := by
      cases h with
      | text start part => exact absurd (start.eq_of_length_le lead.length_le) part
      | binary start part => exact absurd (lead.trans start) (by decide)
      | line _ endless short => exact ⟨endless, short⟩
      | fixed lead' _ => exact absurd lead' (not_binary_of_text lead)
      | body lead' _ => exact absurd lead' (not_binary_of_text lead)
    cases hfound : lineOf? s with
    | none => rfl
    | some found =>
      rcases lineOf?_eq_some hfound with ⟨line, rest, -, hcut, -⟩ | ⟨-, hlong, -⟩
      · exact absurd ⟨line, rest, hcut.split.symm⟩ hline.1
      · omega
  · intro h
    obtain ⟨hshort, hno⟩ := lineOf?_eq_none h
    exact .line lead ((noLineWithin_iff (Nat.le_of_lt hshort)).1 hno) hshort

theorem open_binary_iff {s : Bytes} (lead : BinaryForm.signature <+: s) : Open s ↔ s.length < headerLength s := by
  constructor
  · intro h
    cases h with
    | text start part => exact absurd (lead.trans start) (by decide)
    | binary start part => exact absurd (start.eq_of_length_le lead.length_le) part
    | line lead' _ _ => exact absurd lead (not_binary_of_text lead')
    | fixed _ short => exact Nat.lt_of_lt_of_le short (fixedLength_le_headerLength s)
    | body _ short => exact short
  · exact .body lead

theorem not_open_of_plain {s : Bytes} (noText : ¬ TextForm.signature <+: s ∧ ¬ s <+: TextForm.signature)
    (noBinary : ¬ BinaryForm.signature <+: s ∧ ¬ s <+: BinaryForm.signature) : ¬ Open s := by
  intro h
  cases h with
  | text start _ => exact noText.2 start
  | binary start _ => exact noBinary.2 start
  | line lead _ _ => exact noText.1 lead
  | fixed lead _ => exact noBinary.1 lead
  | body lead _ => exact noBinary.1 lead

theorem open_of_undecided {s : Bytes} (no : ¬ TextForm.signature <+: s ∧ ¬ BinaryForm.signature <+: s)
    (start : s <+: TextForm.signature ∨ s <+: BinaryForm.signature) : Open s := by
  rcases start with start | start
  · exact .text start fun h => no.1 (h ▸ List.prefix_rfl)
  · exact .binary start fun h => no.2 (h ▸ List.prefix_rfl)

/-- What is open, in the terms of the reader's questions. -/
def isOpen (s : Bytes) : Bool :=
  match detect s with
  | .text => (lineOf? s).isNone
  | .binary => s.length < headerLength s
  | .undecided => true
  | .absent => false

theorem isOpen_iff (s : Bytes) : isOpen s = true ↔ Open s := by
  unfold isOpen
  rcases detect_cases s with ⟨h, lead⟩ | ⟨h, lead⟩ | ⟨h, no, start⟩ | ⟨h, noText, noBinary⟩ <;> rw [h]
  · simp [open_text_iff lead]
  · simp [open_binary_iff lead]
  · simp [open_of_undecided no start]
  · simp [not_open_of_plain noText noBinary]

instance : DecidablePred Open := fun s => decidable_of_iff _ (isOpen_iff s)

/-! ## What is settled -/

theorem not_settles_of_open {s : Bytes} (h : Open s) (o : Outcome) : ¬ Settles s o := by
  intro ho
  cases ho with
  | line lead cut fits =>
    have hno := (lineOf?_eq_none ((open_text_iff lead).1 h)).2 _ _ cut.split
    omega
  | tooLong lead long endless =>
    have hshort := (lineOf?_eq_none ((open_text_iff lead).1 h)).1
    omega
  | binary lead whole =>
    have hshort := (open_binary_iff lead).1 h
    omega
  | plain noText noBinary => exact not_open_of_plain noText noBinary h

theorem exists_settles {s : Bytes} (h : ¬ Open s) : ∃ o, Settles s o := by
  rcases detect_cases s with ⟨-, lead⟩ | ⟨-, lead⟩ | ⟨-, no, start⟩ | ⟨-, noText, noBinary⟩
  · rw [open_text_iff lead] at h
    obtain ⟨found, hfound⟩ := Option.ne_none_iff_exists'.1 h
    rcases lineOf?_eq_some hfound with ⟨line, rest, -, cut, fits⟩ | ⟨-, long, endless⟩
    · exact ⟨_, .line lead cut fits⟩
    · exact ⟨_, .tooLong lead long endless⟩
  · rw [open_binary_iff lead, Nat.not_lt] at h
    exact ⟨_, .binary lead h⟩
  · exact absurd (open_of_undecided no start) h
  · exact ⟨_, .plain noText noBinary⟩

def extended (o : Outcome) (more : Bytes) : Outcome := o.map fun (h, payload) => (h, payload ++ more)

theorem extended_ofLine (line rest more : Bytes) : extended (ofLine line rest) more = ofLine line (rest ++ more) := by
  unfold ofLine
  cases TextForm.read line <;> rfl

theorem extended_ofWhole (header rest more : Bytes) :
    extended (ofWhole header rest) more = ofWhole header (rest ++ more) := by
  unfold ofWhole
  cases BinaryForm.read header <;> rfl

/-- More bytes behind those that settle an outcome go to the payload. -/
theorem Settles.append {s : Bytes} {o : Outcome} (h : Settles s o) (more : Bytes) :
    Settles (s ++ more) (extended o more) := by
  cases h with
  | line lead cut fits =>
    rw [extended_ofLine]
    exact .line (lead.trans (List.prefix_append _ _)) (cut.append more) fits
  | tooLong lead long endless =>
    refine .tooLong (lead.trans (List.prefix_append _ _)) ?_ (endless.append long more)
    rw [List.length_append]
    omega
  | binary lead whole =>
    have hfixed := Nat.le_trans (fixedLength_le_headerLength s) whole
    have hlength := headerLength_of_prefix (List.prefix_append s more) hfixed
    have hsettles : Settles (s ++ more) _ := .binary (lead.trans (List.prefix_append _ _))
      (by rw [hlength, List.length_append]; omega)
    rwa [hlength, List.take_append_of_le_length whole, List.drop_append_of_le_length whole,
      ← extended_ofWhole] at hsettles
  | plain noText noBinary => exact .plain (not_prefix_append noText more) (not_prefix_append noBinary more)

/-! ## How long bytes stay open -/

/-- The number of bytes that settle an outcome, whatever they are, by the form of the header that they start with. -/
def settledLength (s : Bytes) : Nat :=
  if TextForm.signature <+: s then 107 else if BinaryForm.signature <+: s then 65551 else 12

theorem bodyLength_le (s : Bytes) : BinaryForm.bodyLength s ≤ 65535 := by
  have hlength : ((s.drop 14).take 2).length ≤ 2 := List.length_take_le 2 _
  have hpow : Nat.pow 256 ((s.drop 14).take 2).length ≤ Nat.pow 256 2 := Nat.pow_le_pow_right (by decide) hlength
  have hlt := Bytes.toNat_lt ((s.drop 14).take 2)
  exact Nat.le_of_lt_succ (Nat.lt_of_lt_of_le hlt hpow)

/-- Open bytes are fewer than those that would settle them. -/
theorem length_lt_of_open {s : Bytes} (h : Open s) : s.length < settledLength s := by
  unfold settledLength
  by_cases hleadT : TextForm.signature <+: s
  · rw [if_pos hleadT]
    exact (lineOf?_eq_none ((open_text_iff hleadT).1 h)).1
  by_cases hleadB : BinaryForm.signature <+: s
  · have hshort : s.length < 16 + BinaryForm.bodyLength s := (open_binary_iff hleadB).1 h
    have hbody := bodyLength_le s
    rw [if_neg hleadT, if_pos hleadB]
    omega
  · rw [if_neg hleadT, if_neg hleadB]
    cases h with
    | text start _ => exact Nat.lt_of_le_of_lt start.length_le (by decide)
    | binary start part =>
      have hlength : BinaryForm.signature.length = 12 := rfl
      exact Nat.lt_of_le_of_ne start.length_le fun h => part (start.eq_of_length (h.trans hlength.symm))
    | line lead _ _ => exact absurd lead hleadT
    | fixed lead _ => exact absurd lead hleadB
    | body lead _ => exact absurd lead hleadB

theorem settledLength_mono {s t : Bytes} (h : s <+: t) : settledLength s ≤ settledLength t := by
  unfold settledLength
  by_cases hleadT : TextForm.signature <+: s
  · refine Nat.le_of_eq ?_
    rw [if_pos hleadT, if_pos (hleadT.trans h)]
  by_cases hleadB : BinaryForm.signature <+: s
  · have hnotT : ¬ TextForm.signature <+: t := fun hlead => not_binary_of_text hlead (hleadB.trans h)
    refine Nat.le_of_eq ?_
    rw [if_neg hleadT, if_pos hleadB, if_neg hnotT, if_pos (hleadB.trans h)]
  · rw [if_neg hleadT, if_neg hleadB]
    split
    · decide
    · split <;> decide

/-! ## What is gathered -/

/-- What has been gathered after none, one, two and more of the chunks, with what had been gathered before. -/
def gatherings (gathered : Bytes) (chunks : List Bytes) : List Bytes := chunks.scanl (· ++ ·) gathered

theorem gatherings_cons (gathered chunk : Bytes) (chunks : List Bytes) :
    gatherings gathered (chunk :: chunks) = gathered :: gatherings (gathered ++ chunk) chunks := List.scanl_cons

theorem head?_gatherings (gathered : Bytes) (chunks : List Bytes) :
    (gatherings gathered chunks).head? = some gathered := by
  cases chunks with
  | nil => rfl
  | cons chunk chunks => rw [gatherings_cons, List.head?_cons]

theorem prefix_of_mem_gatherings {gathered s : Bytes} {chunks : List Bytes} (h : s ∈ gatherings gathered chunks) :
    gathered <+: s := by
  induction chunks generalizing gathered with
  | nil =>
    obtain rfl := List.mem_singleton.1 h
    exact List.prefix_rfl
  | cons chunk chunks ih =>
    rw [gatherings_cons] at h
    rcases List.mem_cons.1 h with rfl | h
    · exact List.prefix_rfl
    · exact (List.prefix_append _ _).trans (ih h)

theorem prefix_flatten_of_mem_gatherings {gathered s : Bytes} {chunks : List Bytes}
    (h : s ∈ gatherings gathered chunks) : s <+: gathered ++ chunks.flatten := by
  induction chunks generalizing gathered with
  | nil =>
    obtain rfl := List.mem_singleton.1 h
    exact List.prefix_append _ _
  | cons chunk chunks ih =>
    rw [gatherings_cons] at h
    rcases List.mem_cons.1 h with rfl | h
    · exact List.prefix_append _ _
    · rw [List.flatten_cons, ← List.append_assoc]
      exact ih h

/-- Where no chunk is empty, what is gathered grows with each of them, so only so many gatherings are short. -/
theorem length_le_of_short {chunks : List Bytes} (hchunks : ∀ chunk ∈ chunks, chunk ≠ []) {gathered : Bytes}
    {front : List Bytes} (h : front <+: gatherings gathered chunks) {limit : Nat}
    (hshort : ∀ s ∈ front, s.length < limit) : front ≠ [] → gathered.length + front.length ≤ limit := by
  intro hne
  obtain ⟨s, front, rfl⟩ := List.exists_cons_of_ne_nil hne
  have hs := hshort s List.mem_cons_self
  induction chunks generalizing gathered s front with
  | nil =>
    obtain ⟨rfl, hfront⟩ := List.cons_prefix_cons.1 h
    obtain rfl := List.prefix_nil.1 hfront
    exact hs
  | cons chunk chunks ih =>
    rw [gatherings_cons] at h
    obtain ⟨rfl, hfront⟩ := List.cons_prefix_cons.1 h
    cases front with
    | nil => exact hs
    | cons t front =>
      have hchunk : 0 < chunk.length := List.length_pos_iff.2 (hchunks chunk List.mem_cons_self)
      have hrest := ih (fun c hc => hchunks c (List.mem_cons_of_mem _ hc)) t front hfront
        (fun s hs => hshort s (List.mem_cons_of_mem _ hs)) (List.cons_ne_nil _ _)
        (hshort t (List.mem_cons_of_mem _ List.mem_cons_self))
      simp only [List.length_append, List.length_cons] at hrest ⊢
      omega

theorem length_le_length_flatten {chunks : List Bytes} (hchunks : ∀ chunk ∈ chunks, chunk ≠ []) :
    chunks.length ≤ chunks.flatten.length := by
  induction chunks with
  | nil => exact Nat.le_refl _
  | cons chunk chunks ih =>
    have hchunk : 0 < chunk.length := List.length_pos_iff.2 (hchunks chunk List.mem_cons_self)
    have hrest := ih fun c hc => hchunks c (List.mem_cons_of_mem _ hc)
    rw [List.flatten_cons, List.length_append, List.length_cons]
    omega

namespace Noted

variable {α β : Type}

theorem readsAfter_cutShort {γ : Type} (s : Bytes) (ending : Ending) (g : γ → α) (f : α → Noted β) :
    readsAfter (g <$> ranOut (cutShort s) ending) f = [] := by
  cases ending <;> rfl

/-- A loop goes through what is gathered one read after the other, up to the first that has an answer. -/
theorem gather_stages (answer? : Bytes → Option α) (atEnd : Bytes → Except HeaderError α) (ending : Ending)
    (gathered : Bytes) (chunks : List Bytes) :
    (∀ s ∈ (gather answer? atEnd ending gathered chunks).reads, answer? s = none) ∧
    ((∃ front a back, gathered <+: front ∧ answer? front = some a ∧
      (gather answer? atEnd ending gathered chunks).outcome = pure (a, back) ∧
      gatherings gathered chunks = (gather answer? atEnd ending gathered chunks).reads ++ gatherings front back) ∨
    ((gather answer? atEnd ending gathered chunks).outcome =
        (·, []) <$> ranOut (atEnd (gathered ++ chunks.flatten)) ending ∧
      gatherings gathered chunks = (gather answer? atEnd ending gathered chunks).reads)) := by
  -- On the chunks, for any bytes in front of them: the loop is the same with one more chunk gathered.
  induction chunks generalizing gathered with
  | nil =>
    rw [gather]
    cases h : answer? gathered with
    | some a => exact ⟨fun _ hs => absurd hs List.not_mem_nil, .inl ⟨gathered, a, [], List.prefix_rfl, h, rfl, rfl⟩⟩
    | none =>
      rw [List.flatten_nil, List.append_nil]
      exact ⟨fun s hs => List.mem_singleton.1 hs ▸ h, .inr ⟨rfl, rfl⟩⟩
  | cons chunk chunks ih =>
    rw [gather]
    cases h : answer? gathered with
    | some a =>
      exact ⟨fun _ hs => absurd hs List.not_mem_nil, .inl ⟨gathered, a, chunk :: chunks, List.prefix_rfl, h, rfl, rfl⟩⟩
    | none =>
      obtain ⟨hreads, hstop⟩ := ih (gathered ++ chunk)
      have hbytes : gathered ++ (chunk :: chunks).flatten = gathered ++ chunk ++ chunks.flatten := by
        rw [List.flatten_cons, List.append_assoc]
      rw [gatherings_cons, hbytes]
      refine ⟨fun s hs => ?_, ?_⟩
      · rcases List.mem_cons.1 hs with rfl | hs
        · exact h
        · exact hreads s hs
      · rcases hstop with ⟨front, a, back, hpre, ha, hout, hsame⟩ | ⟨hout, hsame⟩
        · exact .inl ⟨front, a, back, (List.prefix_append _ _).trans hpre, ha, hout, congrArg (gathered :: ·) hsame⟩
        · exact .inr ⟨hout, congrArg (gathered :: ·) hsame⟩

/-- Reading takes a read ahead of everything that is gathered, up to the first that is not open. -/
def Stops (x : Noted α) (gathered : Bytes) (chunks : List Bytes) : Prop :=
  ∃ tail, gatherings gathered chunks = x.reads ++ tail ∧ (∀ s ∈ x.reads, Open s) ∧
    ∀ s, tail.head? = some s → ¬ Open s

theorem stops_of_not_open {x : Noted α} {gathered : Bytes} (hx : x.reads = []) (h : ¬ Open gathered)
    (chunks : List Bytes) : Stops x gathered chunks := by
  refine ⟨gatherings gathered chunks, by rw [hx, List.nil_append], by rw [hx]; nofun, fun s hs => ?_⟩
  obtain rfl := Option.some.inj ((head?_gatherings gathered chunks).symm.trans hs)
  exact h

/-- Reading that starts with a loop stops where it should if the loop leaves off no earlier than it should, and what
comes after it stops where it should from there on. -/
theorem stops_bind {answer? : Bytes → Option α} {atEnd : Bytes → Except HeaderError α} {ending : Ending}
    {gathered : Bytes} {chunks : List Bytes} {f : α × List Bytes → Noted β}
    (hopen : ∀ s, gathered <+: s → answer? s = none → Open s)
    (hafter : ∀ front a back, gathered <+: front → answer? front = some a → Stops (f (a, back)) front back)
    (hover : readsAfter ((·, []) <$> ranOut (atEnd (gathered ++ chunks.flatten)) ending) f = []) :
    Stops (gather answer? atEnd ending gathered chunks >>= f) gathered chunks := by
  obtain ⟨hreads, hstop⟩ := gather_stages answer? atEnd ending gathered chunks
  rw [Stops, reads_bind]
  rcases hstop with ⟨front, a, back, hpre, ha, hout, hall⟩ | ⟨hout, hall⟩
  · obtain ⟨tail, hsame, hopen', hclosed⟩ := hafter front a back hpre ha
    have hrest : readsAfter (gather answer? atEnd ending gathered chunks).outcome f = (f (a, back)).reads := by
      rw [hout]
      rfl
    rw [hrest]
    refine ⟨tail, by rw [hall, hsame, List.append_assoc], fun s hs => ?_, hclosed⟩
    rcases List.mem_append.1 hs with hs | hs
    · exact hopen s (prefix_of_mem_gatherings (hall ▸ List.mem_append_left _ hs)) (hreads s hs)
    · exact hopen' s hs
  · rw [hout, hover, List.append_nil]
    refine ⟨[], by rw [hall, List.append_nil], fun s hs => ?_, nofun⟩
    exact hopen s (prefix_of_mem_gatherings (hall ▸ hs)) (hreads s hs)

/-- Reading a line takes a read for everything that is open, and then no more. -/
theorem stops_readText {gathered : Bytes} (lead : TextForm.signature <+: gathered) (ending : Ending)
    (chunks : List Bytes) : Stops (readText ending gathered chunks) gathered chunks := by
  apply stops_bind
  · intro s hs hnone
    exact (open_text_iff (lead.trans hs)).2 hnone
  · rintro front found back hpre hfound
    have hclosed : ¬ Open front := by
      rw [open_text_iff (lead.trans hpre), hfound]
      nofun
    cases found with
    | ok cut => exact stops_of_not_open rfl hclosed back
    | error fault => exact stops_of_not_open rfl hclosed back
  · exact readsAfter_cutShort _ _ _ _

/-- Reading a binary header takes a read for everything that is open, and then no more. -/
theorem stops_readBinary {gathered : Bytes} (lead : BinaryForm.signature <+: gathered) (ending : Ending)
    (chunks : List Bytes) : Stops (readBinary ending gathered chunks) gathered chunks := by
  apply stops_bind
  · intro s hs hnone
    exact .fixed (lead.trans hs) (enough?_eq_none hnone)
  · intro front s back hpre hs
    obtain ⟨rfl, hfixed⟩ := enough?_eq_some hs
    -- From here on the length is known, and the second loop asks for so many bytes.
    have hshort {t : Bytes} (ht : s <+: t) : Open t ↔ t.length < headerLength s := by
      rw [open_binary_iff ((lead.trans hpre).trans ht), headerLength_of_prefix ht hfixed]
    apply stops_bind
    · intro t ht hnone
      exact (hshort ht).2 (enough?_eq_none hnone)
    · intro whole t rest hpre' ht
      refine stops_of_not_open rfl ?_ rest
      rw [hshort hpre', Nat.not_lt]
      exact (enough?_eq_some ht).2
    · exact readsAfter_cutShort _ _ _ _
  · exact readsAfter_cutShort _ _ _ _

/-- Reading the front of a stream takes a read for everything that is open, and then no more. -/
theorem stops_await (f : Feed) : Stops (await f) [] f.chunks := by
  apply stops_bind
  · intro s _ hnone
    rw [← isOpen_iff, isOpen, leadOf?_eq_none hnone]
  · rintro front ⟨lead, s⟩ back - hs
    obtain ⟨hdetect, hdecided, rfl⟩ := leadOf?_eq_some hs
    rcases detect_cases s with ⟨h, hlead⟩ | ⟨h, hlead⟩ | ⟨h, -⟩ | ⟨h, noText, noBinary⟩
    · obtain rfl := h.symm.trans hdetect
      exact stops_readText hlead f.ending back
    · obtain rfl := h.symm.trans hdetect
      exact stops_readBinary hlead f.ending back
    · exact absurd (h.symm.trans hdetect).symm hdecided
    · obtain rfl := h.symm.trans hdetect
      exact stops_of_not_open rfl (not_open_of_plain noText noBinary) back
  · cases f.ending with
    | closed =>
      unfold leadAtEnd
      split <;> rfl
    | failure reason => rfl
    | silence => rfl

theorem Stops.reads_eq {x : Noted α} {gathered : Bytes} {chunks : List Bytes} (h : Stops x gathered chunks) :
    x.reads = (gatherings gathered chunks).takeWhile (Open ·) := by
  obtain ⟨tail, hsame, hopen, hclosed⟩ := h
  have htail : tail.takeWhile (Open ·) = [] := by
    cases tail with
    | nil => rfl
    | cons s tail => rw [List.takeWhile_cons, if_neg (by simpa using hclosed s rfl)]
  rw [hsame, List.takeWhile_append_of_pos fun s hs => decide_eq_true (hopen s hs), htail, List.append_nil]

end Noted

/-! ## Whole streams -/

/-- A stream is read on from only for what is open, and what comes of it shows no more than that. -/
structure ReadsWhileOpen (f : Feed) : Prop where
  /-- The notes belong to this reader. -/
  outcome : (Noted.await f).outcome = await f
  /-- There is a read ahead of everything that is gathered as long as it is open, and none after that. -/
  reads : (Noted.await f).reads = (gatherings [] f.chunks).takeWhile (Open ·)
  /-- What is not open has its outcome, whatever comes behind it and however that ends; only the payload grows. -/
  returns : ¬ Open f.bytes →
    ∃ o, ∀ more ending, whole (await ⟨f.chunks ++ more, ending⟩) = some (extended o more.flatten)
  /-- What is open is left to the end of the stream. -/
  waits : Open f.bytes → whole (await f) = unsettled f.bytes f.ending
  /-- Nothing is open for long. -/
  short : ∀ s ∈ (Noted.await f).reads, s.length < settledLength s
  /-- So where each read brings something there are not many. -/
  few : (∀ chunk ∈ f.chunks, chunk ≠ []) → (Noted.await f).reads.length ≤ settledLength f.bytes ∧
    (settledLength f.bytes ≤ f.chunks.length → ¬ Open f.bytes)

theorem reads_while_open (f : Feed) : ReadsWhileOpen f := by
  have hreads := (Noted.stops_await f).reads_eq
  obtain ⟨tail, hall, hopen, -⟩ := Noted.stops_await f
  constructor
  case outcome => exact Noted.outcome_await f
  case reads => exact hreads
  case returns =>
    intro hclosed
    obtain ⟨o, ho⟩ := exists_settles hclosed
    refine ⟨o, fun more ending => ?_⟩
    have hbytes : (⟨f.chunks ++ more, ending⟩ : Feed).bytes = f.bytes ++ more.flatten := List.flatten_append
    exact (whole_settled _).1 _ (hbytes ▸ ho.append more.flatten)
  case waits => exact fun h => (whole_settled f).2 (not_settles_of_open h)
  case short => exact fun s hs => length_lt_of_open (hopen s hs)
  case few =>
    intro hchunks
    have hshort : ∀ s ∈ (Noted.await f).reads, s.length < settledLength f.bytes := by
      intro s hs
      have hmem : s ∈ gatherings [] f.chunks := hall ▸ List.mem_append_left tail hs
      exact Nat.lt_of_lt_of_le (length_lt_of_open (hopen s hs))
        (settledLength_mono (prefix_flatten_of_mem_gatherings hmem))
    constructor
    · by_cases hnone : (Noted.await f).reads = []
      · rw [hnone]
        exact Nat.zero_le _
      · have hlength := length_le_of_short hchunks ⟨tail, hall.symm⟩ hshort hnone
        rwa [List.length_nil, Nat.zero_add] at hlength
    · intro hmany hopen'
      have hlength := length_le_length_flatten hchunks
      have hlt := length_lt_of_open hopen'
      exact absurd (Nat.lt_of_le_of_lt (Nat.le_trans hmany hlength) hlt) (Nat.lt_irrefl _)

/-- A relay that speaks for itself, one byte at a time, and then says nothing more. -/
def dripping : Feed := ⟨(Bytes.ofAscii "PROXY UNKNOWN" ++ lineEnd ++ [0x47]).map ([·]), .silence⟩

theorem reads_while_open_dripping :
    (∀ chunk ∈ dripping.chunks, chunk ≠ []) ∧ ¬ Open dripping.bytes ∧ (Noted.await dripping).reads.length = 15 ∧
    (∃ o, ∀ ending, whole (await ⟨dripping.chunks, ending⟩) = some o) ∧
    (Noted.await dripping).reads.length ≤ settledLength dripping.bytes := by
  have hchunks : ∀ chunk ∈ dripping.chunks, chunk ≠ [] := by decide
  have hclosed : ¬ Open dripping.bytes := by decide
  obtain ⟨-, hreads, hreturns, -, -, hfew⟩ := reads_while_open dripping
  have hlength : (Noted.await dripping).reads.length = 15 := by
    rw [hreads]
    decide
  obtain ⟨o, ho⟩ := hreturns hclosed
  refine ⟨hchunks, hclosed, hlength, ⟨extended o [], fun ending => ?_⟩, (hfew hchunks).1⟩
  have h := ho [] ending
  rwa [List.append_nil] at h

end Speedtest.Relay
