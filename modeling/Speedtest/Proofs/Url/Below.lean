import Speedtest.Proofs.Text.Scan
import Speedtest.Url.Parser

/-!
# Locators below a base

A base is read with a slash at its end. Whatever it is, as long as it is a locator on the web without a query and a
fragment, the same base with a word behind that slash is the same locator with the word as the last segment of its path,
in place of the empty one.
-/
namespace Speedtest.Url

variable {scheme base word s : List Char} {u : Url}

/-! ## Words behind a slash -/

/-- A segment that is read as it stands and means nothing but itself. -/
structure IsWord (word : List Char) : Prop where
  visible : ∀ c ∈ word, decide (c ≤ ' ') = false
  whole : ∀ c ∈ word, c ∉ ['/', '\\', '?', '#']
  kept : Escape.apply Escape.path word = word
  dot : isDot word = false
  doubleDot : isDoubleDot word = false

theorem isWord_nil : IsWord [] where
  visible := fun _ hc => nomatch hc
  whole := fun _ hc => nomatch hc
  kept := rfl
  dot := by decide
  doubleDot := by decide

/-! ## Scheme, query and fragment -/

/-- The front of a base once blanks, tabs and line ends are off. -/
def front (base : List Char) : List Char :=
  (base.dropWhile (· ≤ ' ')).filter fun c => c != '\t' && c != '\n' && c != '\r'

/-- Cleaning a base with a word behind it cleans the front of the base alone. -/
theorem clean_below (base : List Char) (hword : IsWord word) : clean (base ++ '/' :: word) = front base ++ '/' :: word := by
  have hvisible : ∀ c ∈ '/' :: word, decide (c ≤ ' ') = false := List.forall_mem_cons.2 ⟨by decide, hword.visible⟩
  have hkept : ∀ c ∈ '/' :: word, (c != '\t' && c != '\n' && c != '\r') = true := by
    intro c hc
    have hne {d : Char} (hd : d ≤ ' ') : c ≠ d := by
      rintro rfl
      exact of_decide_eq_false (hvisible c hc) hd
    simp [hne (d := '\t') (by decide), hne (d := '\n') (by decide), hne (d := '\r') (by decide)]
  have hback : Text.dropBack (· ≤ ' ') (base.dropWhile (· ≤ ' ') ++ '/' :: word) =
      base.dropWhile (· ≤ ' ') ++ '/' :: word := by
    rw [Text.dropBack_eq_self_iff, List.getLast?_append, List.getLast?_eq_some_getLast (List.cons_ne_nil '/' word),
      Option.some_or]
    rintro c hc
    obtain rfl := Option.some.inj hc
    exact hvisible _ (List.getLast_mem _)
  rw [clean, Text.trimBy, Text.dropWhile_stop (by decide), hback, List.filter_append, List.filter_eq_self.2 hkept]
  rfl

/-- The slash behind the base is not part of the scheme. -/
theorem readScheme?_below {rest : List Char} (h : readScheme? (base ++ ['/']) = some (scheme, rest)) :
    ∃ place, rest = place ++ ['/'] ∧ ∀ word, readScheme? (base ++ '/' :: word) = some (scheme, place ++ '/' :: word) := by
  by_cases hcolon : ':' ∈ base
  · obtain ⟨lead, place, rfl, hlead⟩ := List.eq_append_cons_of_mem hcolon
    have hcut (word : List Char) : Text.cutAt? (· == ':') (lead ++ ':' :: place ++ '/' :: word) =
        some (lead, place ++ '/' :: word) := by
      rw [List.append_assoc, List.cons_append]
      exact Text.cutAt?_append (Text.not_mem_iff_beq.1 hlead) rfl
    unfold readScheme? at h ⊢
    simp only [hcut] at h ⊢
    cases lead with
    | nil => exact nomatch h
    | cons c lead =>
      dsimp only at h ⊢
      split at h
      case isTrue hscheme =>
        obtain ⟨rfl, rfl⟩ := Prod.mk.inj (Option.some.inj h)
        exact ⟨place, rfl, fun word => if_pos hscheme⟩
      case isFalse => exact nomatch h
  · have hcut : Text.cutAt? (· == ':') (base ++ ['/']) = none := by
      rw [Text.cutAt?_eq_none_iff, ← Text.not_mem_iff_beq]
      exact fun hmem => (List.mem_append.1 hmem).elim hcolon (by decide)
    rw [readScheme?, hcut] at h
    exact nomatch h

theorem splitOff_of_not_mem {mark : Char} (h : mark ∉ s) : splitOff mark s = (s, none) := by
  rw [splitOff, Text.cutAt?_eq_none_iff.2 (Text.not_mem_iff_beq.1 h)]

theorem not_mem_of_splitOff {mark : Char} (h : (splitOff mark s).2 = none) : mark ∉ s := by
  unfold splitOff at h
  split at h
  case h_1 => exact nomatch h
  case h_2 hcut => exact Text.not_mem_iff_beq.2 (Text.cutAt?_eq_none_iff.1 hcut)

/-! ## Paths -/

/-- The way along segments that are followed by more. -/
def along (path : List (List Char)) (segments : List (List Char)) : List (List Char) :=
  segments.foldl (fun path segment => extend false path segment false) path

theorem walk_concat (path segments : List (List Char)) (last : List Char) :
    walk false path (segments ++ [last]) = extend false (along path segments) last true := by
  induction segments generalizing path with
  | nil => rfl
  | cons segment segments ih =>
    have hstep : along path (segment :: segments) = along (extend false path segment false) segments := rfl
    rw [hstep, ← ih]
    cases segments <;> rfl

theorem extend_word (path : List (List Char)) (hword : IsWord word) : extend false path word true = path ++ [word] := by
  simp [extend, hword.dot, hword.doubleDot]

/-- A segment as it is kept: written with escapes. -/
def IsKept (segment : List Char) : Prop := ∃ s, segment = Escape.apply Escape.path s

/-- Going along a segment keeps every segment written with escapes. -/
theorem isKept_extend {path : List (List Char)} {segment : List Char} (hpath : ∀ kept ∈ path, IsKept kept)
    (hsegment : IsKept segment) : ∀ kept ∈ extend false path segment false, IsKept kept := by
  unfold extend
  split
  · intro kept hkept
    rw [if_neg Bool.false_ne_true, List.append_nil] at hkept
    refine hpath kept ?_
    unfold above at hkept
    split at hkept
    · exact nomatch hkept
    · exact (List.dropLast_sublist _).subset hkept
  · split
    · simpa using hpath
    · split
      case isTrue hdrive => exact nomatch hdrive
      case isFalse => simpa [or_imp, forall_and] using ⟨hpath, hsegment⟩

theorem isKept_along {path segments : List (List Char)} (hpath : ∀ kept ∈ path, IsKept kept)
    (hsegments : ∀ segment ∈ segments, IsKept segment) : ∀ kept ∈ along path segments, IsKept kept := by
  induction segments generalizing path with
  | nil => exact hpath
  | cons segment segments ih =>
    rw [List.forall_mem_cons] at hsegments
    exact ih (isKept_extend hpath hsegments.1) hsegments.2

theorem pieces_word (hword : IsWord word) : pieces true word = [word] := by
  refine List.splitOnP_eq_singleton fun c hc => ?_
  have hmarks := hword.whole c hc
  simp only [List.mem_cons, not_or] at hmarks
  simp [hmarks]

/-- A path with a slash and a word behind it. -/
theorem readPath_below (hfile : isFile scheme = false) (hspecial : isSpecial scheme = true) (s : List Char) :
    ∃ path, (∀ segment ∈ path, IsKept segment) ∧
      ∀ word, IsWord word → readPath scheme (s ++ '/' :: word) = path ++ [word] := by
  cases s with
  | nil =>
    refine ⟨[], List.forall_mem_nil _, fun word hword => ?_⟩
    simp only [List.nil_append, readPath, hfile, hspecial, pieces_word hword, List.map_cons, List.map_nil, hword.kept]
    exact extend_word [] hword
  | cons c s =>
    refine ⟨along [] ((pieces true s).map (Escape.apply Escape.path)), ?_, fun word hword => ?_⟩
    · refine isKept_along (List.forall_mem_nil _) fun segment hsegment => ?_
      obtain ⟨piece, -, rfl⟩ := List.mem_map.1 hsegment
      exact ⟨piece, rfl⟩
    · have hpieces : pieces true (s ++ '/' :: word) = pieces true s ++ [word] := by
        rw [pieces, List.splitOnP_append_cons _ _ (by decide), ← pieces, ← pieces, pieces_word hword]
      simp only [List.cons_append, readPath, hfile, hspecial, hpieces, List.map_append, List.map_cons, List.map_nil,
        hword.kept, walk_concat]
      exact extend_word _ hword

/-! ## Whole locators -/

theorem isFile_of_isWeb (hweb : isWeb scheme = true) : isFile scheme = false := by
  have hall : ∀ scheme ∈ ["http", "https", "ws", "wss", "ftp"].map String.toList, isFile scheme = false := by decide
  exact hall scheme (of_decide_eq_true hweb)

theorem isSpecial_of_isWeb (hweb : isWeb scheme = true) : isSpecial scheme = true := by
  rw [isSpecial, hweb, Bool.true_or]

theorem readRest_web (hweb : isWeb scheme = true) (s : List Char) (followed : Bool) :
    readRest scheme s followed =
      let parts := splitAuthority true (s.dropWhile fun c => c == '/' || c == '\\')
      (readAuthority scheme parts.1 (followed || !parts.2.isEmpty)).map fun authority =>
        (some authority, .segments (readPath scheme parts.2)) := by
  simp only [readRest, hweb, if_true, isSpecial_of_isWeb hweb]
  cases readAuthority scheme _ _ <;> rfl

/-- Nobody answers where there is no authority at all. -/
theorem readAuthority_nil (hweb : isWeb scheme = true) : readAuthority scheme [] false = .error .emptyHost := by
  simp [readAuthority, hweb, Text.cutAt?, splitHost, bind, Except.bind, throw, throwThe, MonadExceptOf.throw]

theorem splitAuthority_below (place word : List Char) : splitAuthority true (place ++ '/' :: word) =
    ((splitAuthority true place).1, (splitAuthority true place).2 ++ '/' :: word) := by
  simp only [splitAuthority, Text.takeWhile_stop, Text.dropWhile_stop, beq_self_eq_true, Bool.true_or, Bool.not_true]

/-- What stands behind the scheme is the same authority with any word behind the slash, and the same path but for it. -/
theorem readRest_below (hweb : isWeb scheme = true) {found : Option Authority × Path}
    (h : readRest scheme (s ++ ['/']) false = .ok found) :
    ∃ segments, (∀ segment ∈ segments, IsKept segment) ∧
      ∀ word, IsWord word → readRest scheme (s ++ '/' :: word) false = .ok (found.1, .segments (segments ++ [word])) := by
  have hdrop (word : List Char) : (s ++ '/' :: word).dropWhile (fun c => c == '/' || c == '\\') =
      if (s.dropWhile fun c => c == '/' || c == '\\').isEmpty then ('/' :: word).dropWhile fun c => c == '/' || c == '\\'
      else (s.dropWhile fun c => c == '/' || c == '\\') ++ '/' :: word := List.dropWhile_append
  cases hplace : s.dropWhile fun c => c == '/' || c == '\\' with
  | nil =>
    -- slashes alone lead to nobody
    have hnone : splitAuthority true (['/'].dropWhile fun c => c == '/' || c == '\\') = ([], []) := rfl
    rw [readRest_web hweb, hdrop, hplace, List.isEmpty_nil, if_pos rfl, hnone] at h
    simp only [List.isEmpty_nil, Bool.not_true, Bool.or_false, readAuthority_nil hweb] at h
    exact nomatch h
  | cons c place =>
    obtain ⟨segments, hkept, hpath⟩ := readPath_below (isFile_of_isWeb hweb) (isSpecial_of_isWeb hweb)
      (splitAuthority true (c :: place)).2
    have hempty (word : List Char) : ((splitAuthority true (c :: place)).2 ++ '/' :: word).isEmpty = false := by simp
    have hrest (word : List Char) (hword : IsWord word) : readRest scheme (s ++ '/' :: word) false =
        (readAuthority scheme (splitAuthority true (c :: place)).1 true).map fun authority =>
          (some authority, .segments (segments ++ [word])) := by
      rw [readRest_web hweb, hdrop, hplace, List.isEmpty_cons, if_neg Bool.false_ne_true, splitAuthority_below]
      simp only [hempty, Bool.not_false, Bool.or_true, hpath word hword]
    refine ⟨segments, hkept, fun word hword => ?_⟩
    rw [hrest [] isWord_nil] at h
    rw [hrest word hword]
    cases hauthority : readAuthority scheme (splitAuthority true (c :: place)).1 true with
    | error fault =>
      rw [hauthority] at h
      exact nomatch h
    | ok authority =>
      rw [hauthority] at h
      obtain rfl := Except.ok.inj h
      rfl

/-- A locator without a query and a fragment is its scheme and what stands behind it. -/
theorem ofText_eq_ok_iff (hquery : u.query = none) (hfragment : u.fragment = none) :
    ofText s = .ok u ↔ ∃ rest, readScheme? (clean s) = some (u.scheme, rest) ∧ '#' ∉ rest ∧ '?' ∉ rest ∧
      readRest u.scheme rest false = .ok (u.authority, u.path) := by
  obtain ⟨scheme, authority, path, query, fragment⟩ := u
  obtain rfl : query = none := hquery
  obtain rfl : fragment = none := hfragment
  constructor
  · intro h
    simp only [ofText, bind, Except.bind, pure, Except.pure] at h
    split at h
    case h_1 found rest hscheme =>
      split at h
      case h_1 => exact nomatch h
      case h_2 hrest =>
        simp only [Except.ok.injEq, mk.injEq, Option.map_eq_none_iff] at h
        obtain ⟨rfl, rfl, rfl, hmark, hhash⟩ := h
        have hhash' := not_mem_of_splitOff hhash
        rw [hmark, hhash, splitOff_of_not_mem hhash'] at hrest
        rw [splitOff_of_not_mem hhash'] at hmark
        have hmark' := not_mem_of_splitOff hmark
        rw [splitOff_of_not_mem hmark'] at hrest
        exact ⟨rest, hscheme, hhash', hmark', hrest⟩
    case h_2 => exact nomatch h
  · rintro ⟨rest, hscheme, hhash, hmark, hrest⟩
    simp only [ofText, hscheme, splitOff_of_not_mem hhash, splitOff_of_not_mem hmark, Option.isSome_none, Bool.or_false, hrest]
    rfl

/-- A base that is read with a slash at its end is read with any word behind that slash, which becomes the last segment
of the path. -/
theorem ofText_below (h : ofText (base ++ ['/']) = .ok u) (hweb : isWeb u.scheme = true) (hquery : u.query = none)
    (hfragment : u.fragment = none) :
    ∃ segments, (∀ segment ∈ segments, IsKept segment) ∧ u.path = .segments (segments ++ [[]]) ∧
      ∀ word, IsWord word → ofText (base ++ '/' :: word) = .ok { u with path := .segments (segments ++ [word]) } := by
  obtain ⟨rest, hscheme, hhash, hmark, hrest⟩ := (ofText_eq_ok_iff hquery hfragment).1 h
  rw [clean_below base isWord_nil] at hscheme
  obtain ⟨place, rfl, hbelow⟩ := readScheme?_below hscheme
  obtain ⟨segments, hkept, hpath⟩ := readRest_below hweb hrest
  have hbare := hpath [] isWord_nil
  rw [hrest, Except.ok.injEq, Prod.mk.injEq] at hbare
  refine ⟨segments, hkept, hbare.2, fun word hword => ?_⟩
  have hnone {mark : Char} (hplace : mark ∉ place ++ ['/']) (hword : mark ∉ word) : mark ∉ place ++ '/' :: word := by
    rw [List.append_cons]
    exact fun hmem => (List.mem_append.1 hmem).elim hplace hword
  refine (ofText_eq_ok_iff (u := { u with path := .segments (segments ++ [word]) }) hquery hfragment).2
    ⟨place ++ '/' :: word, ?_, ?_, ?_, hpath word hword⟩
  · rw [clean_below base hword]
    exact hbelow word
  · exact hnone hhash fun hmem => hword.whole _ hmem (by decide)
  · exact hnone hmark fun hmem => hword.whole _ hmem (by decide)

end Speedtest.Url
