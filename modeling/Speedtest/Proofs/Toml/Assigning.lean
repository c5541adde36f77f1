import Speedtest.Toml.Reader

/-!
# A value that is there stays

While a document is read, a name that stands for a value keeps it: no line that comes later changes it, puts another
value in its place or makes a table of it. So a document that starts with a name and its value has that value under the
name, whatever its other lines are.
-/
namespace Speedtest.Toml

/-! ## Drafts -/

namespace Draft

variable {d d' : Draft} {name other : String} {v w : Value}

/-- A name stands for a value. -/
def Holds (d : Draft) (name : String) (v : Value) : Prop := d.lookup name = some (.leaf v)

theorem lookup_replaced (h : name ≠ other) (d : Draft) (n : Node) :
    List.lookup name (d.map fun m => if m.1 == other then (other, n) else m) = d.lookup name := by
  have hne : (name == other) = false := beq_eq_false_iff_ne.2 h
  induction d with
  | nil => rfl
  | cons m d ih =>
    rw [List.map_cons, List.lookup_cons, List.lookup_cons, ih]
    by_cases hm : m.1 = other
    · simp [hm, hne]
    · simp [hm]

theorem lookup_set_of_ne (h : name ≠ other) (d : Draft) (n : Node) : (d.set other n).lookup name = d.lookup name := by
  have hne : (name == other) = false := beq_eq_false_iff_ne.2 h
  unfold set
  split
  · exact lookup_replaced h d n
  · rw [List.lookup_append]
    simp [List.lookup_cons, hne]

/-- A node set under a name that stood for no value leaves the values. -/
theorem Holds.set {found : Option Node} (h : d.Holds name v) (hother : d.lookup other = found)
    (hfound : found ≠ some (.leaf v)) (n : Node) : (d.set other n).Holds name v := by
  have hne : name ≠ other := by
    rintro rfl
    exact hfound (hother.symm.trans h)
  exact (lookup_set_of_ne hne d n).trans h

/-- So does a table that is set there once it was changed. -/
theorem Holds.set_changed {found : Option Node} (h : d.Holds name v) (hother : d.lookup other = found)
    (hfound : found ≠ some (.leaf v)) {changed : Option Draft} {n : Draft → Node}
    (hset : (changed.map fun t => d.set other (n t)) = some d') : d'.Holds name v := by
  obtain ⟨t, -, rfl⟩ := Option.map_eq_some_iff.1 hset
  exact h.set hother hfound (n t)

/-- Adding a value keeps the one that is held. -/
theorem Holds.addValue {path : List String} (h : d.Holds name v) (hadd : d.addValue path w = some d') :
    d'.Holds name v := by
  cases path with
  | nil => exact nomatch hadd
  | cons other rest =>
    cases rest with
    | nil =>
      rw [Draft.addValue] at hadd
      split at hadd
      · exact nomatch hadd
      · obtain rfl := Option.some.inj hadd
        rw [Holds, List.lookup_append, h]
        rfl
    | cons next rest =>
      cases hother : d.lookup other with
      | none =>
        simp only [Draft.addValue, hother] at hadd
        exact h.set_changed hother nofun hadd
      | some found =>
        cases found with
        | leaf =>
          simp only [Draft.addValue, hother] at hadd
          exact nomatch hadd
        | table origin t =>
          cases origin with
          | declared =>
            simp only [Draft.addValue, hother] at hadd
            exact nomatch hadd
          | implied =>
            simp only [Draft.addValue, hother] at hadd
            split at hadd
            · exact nomatch hadd
            · exact h.set_changed hother nofun hadd
          | dotted =>
            simp only [Draft.addValue, hother] at hadd
            exact h.set_changed hother nofun hadd
        | tables newest older =>
          simp only [Draft.addValue, hother] at hadd
          split at hadd
          · exact nomatch hadd
          · exact h.set_changed (n := fun t => .tables t older) hother nofun hadd

/-- A change of a table below leaves the values of this one, and one of this table has to leave them itself. -/
theorem Holds.update {path : List String} {f : Draft → Option Draft} (h : d.Holds name v)
    (hf : ∀ d', f d = some d' → d'.Holds name v) (hupdate : d.update path f = some d') : d'.Holds name v := by
  cases path with
  | nil => exact hf d' hupdate
  | cons other rest =>
    cases hother : d.lookup other with
    | none =>
      simp only [Draft.update, hother] at hupdate
      exact h.set_changed hother nofun hupdate
    | some found =>
      simp only [Draft.update, hother] at hupdate
      cases found with
      | leaf => exact nomatch hupdate
      | table origin t => exact h.set_changed hother nofun hupdate
      | tables newest older => exact h.set_changed (n := fun t => .tables t older) hother nofun hupdate

/-- Declaring a table keeps the value that is held. -/
theorem Holds.declare {path : List String} (h : d.Holds name v) (hdeclare : d.declare path = some d') :
    d'.Holds name v := by
  unfold Draft.declare at hdeclare
  split at hdeclare
  · exact nomatch hdeclare
  · refine h.update (fun changed hchanged => ?_) hdeclare
    split at hchanged
    · rename_i hother
      obtain rfl := Option.some.inj hchanged
      exact h.set hother nofun _
    · rename_i hother
      obtain rfl := Option.some.inj hchanged
      exact h.set hother nofun _
    · exact nomatch hchanged

theorem Holds.declareAnother {path : List String} (h : d.Holds name v) (hdeclare : d.declareAnother path = some d') :
    d'.Holds name v := by
  unfold Draft.declareAnother at hdeclare
  split at hdeclare
  · exact nomatch hdeclare
  · refine h.update (fun changed hchanged => ?_) hdeclare
    split at hchanged
    · rename_i hother
      obtain rfl := Option.some.inj hchanged
      exact h.set hother nofun _
    · rename_i hother
      obtain rfl := Option.some.inj hchanged
      exact h.set hother nofun _
    · exact nomatch hchanged

end Draft

theorem get?_finish (d : Draft) (name : String) : Table.get? (finish d) name = (d.lookup name).map Node.value := by
  induction d with
  | nil => rfl
  | cons m d ih =>
    have htail : (finish d).lookup name = (d.lookup name).map Node.value := ih
    rw [finish, Table.get?, List.lookup_cons, List.lookup_cons, htail]
    cases name == m.1 <;> rfl

/-! ## Lines -/

namespace Progress

variable {p p' : Progress} {name : String} {v : Value} {s rest : List Char}

theorem holds_header? (h : p.draft.Holds name v) (hread : p.header? s = some (p', rest)) : p'.draft.Holds name v := by
  simp only [header?, Option.bind_eq_bind, Option.bind_eq_some_iff, Prod.exists] at hread
  obtain ⟨path, t, -, hread⟩ := hread
  split at hread
  · simp only [Option.bind_eq_some_iff] at hread
    obtain ⟨draft, hdeclare, rest', -, hread⟩ := hread
    obtain ⟨rfl, -⟩ := Prod.mk.inj (Option.some.inj hread)
    exact h.declare hdeclare
  · exact nomatch hread

theorem holds_arrayHeader? (h : p.draft.Holds name v) (hread : p.arrayHeader? s = some (p', rest)) :
    p'.draft.Holds name v := by
  simp only [arrayHeader?, Option.bind_eq_bind, Option.bind_eq_some_iff, Prod.exists] at hread
  obtain ⟨path, t, -, hread⟩ := hread
  split at hread
  · simp only [Option.bind_eq_some_iff] at hread
    obtain ⟨draft, hdeclare, rest', -, hread⟩ := hread
    obtain ⟨rfl, -⟩ := Prod.mk.inj (Option.some.inj hread)
    exact h.declareAnother hdeclare
  · exact nomatch hread

theorem holds_pairLine? (h : p.draft.Holds name v) (hread : p.pairLine? s = some (p', rest)) :
    p'.draft.Holds name v := by
  simp only [pairLine?, Option.bind_eq_bind, Option.bind_eq_some_iff, Prod.exists] at hread
  obtain ⟨path, w, t, -, draft, hupdate, rest', -, hread⟩ := hread
  obtain ⟨rfl, -⟩ := Prod.mk.inj (Option.some.inj hread)
  exact h.update (fun _ hadd => h.addValue hadd) hupdate

theorem holds_line? (h : p.draft.Holds name v) (hread : p.line? s = some (p', rest)) : p'.draft.Holds name v := by
  unfold line? at hread
  split at hread
  · obtain ⟨t, -, hread⟩ := Option.map_eq_some_iff.1 hread
    obtain ⟨rfl, -⟩ := Prod.mk.inj hread
    exact h
  · obtain ⟨rfl, -⟩ := Prod.mk.inj (Option.some.inj hread)
    exact h
  · obtain ⟨t, -, hread⟩ := Option.map_eq_some_iff.1 hread
    obtain ⟨rfl, -⟩ := Prod.mk.inj hread
    exact h
  · exact holds_arrayHeader? h hread
  · exact holds_header? h hread
  · exact holds_pairLine? h hread

/-- No line that follows changes a value that is held. -/
theorem holds_lines? {fuel : Nat} (h : p.draft.Holds name v) (hread : lines? fuel p s = some p') :
    p'.draft.Holds name v := by
  induction fuel generalizing p s with
  | zero =>
    unfold lines? at hread
    split at hread
    · obtain rfl := Option.some.inj hread
      exact h
    · exact nomatch hread
  | succ fuel ih =>
    unfold lines? at hread
    split at hread
    · obtain rfl := Option.some.inj hread
      exact h
    · obtain ⟨⟨q, t⟩, hline, hread⟩ := Option.bind_eq_some_iff.1 hread
      exact ih (holds_line? h hline) hread

end Progress

/-! ## Assignments -/

/-- The lines of a document behind its first one, which gives a value to `v`. -/
def linesBehind? (fuel : Nat) (v : Value) (rest : List Char) : Option Progress :=
  (lineTail? rest).bind (Progress.lines? fuel ⟨[("v", .leaf v)], []⟩)

theorem key?_name (s : List Char) : key? ('v' :: ' ' :: '=' :: s) = some (["v"], '=' :: s) := rfl

theorem pair?_assignment (item : Reader Value) (s : List Char) :
    pair? item ('v' :: ' ' :: '=' :: ' ' :: s) =
      (item (skipBlanks s)).map fun found => ((["v"], found.1), found.2) := by
  rw [pair?, key?_name, Option.bind_eq_bind, Option.bind_some]
  show (item (skipBlanks s)).bind _ = _
  cases item (skipBlanks s) <;> rfl

/-- A document that starts with an assignment is its value and the lines behind it. -/
theorem read?_assignment (s : List Char) : read? ("v = ".toList ++ s) =
    (value? (nestingLimit - 1) (skipBlanks s)).bind fun found =>
      (linesBehind? (s.length + 3) found.1 found.2).map fun p => finish p.draft := by
  have hline : Progress.line? ⟨[], []⟩ ('v' :: ' ' :: '=' :: ' ' :: s) =
      (value? (nestingLimit - 1) (skipBlanks s)).bind fun found =>
        (lineTail? found.2).map fun rest => (⟨[("v", .leaf found.1)], []⟩, rest) := by
    have hpair : Progress.line? ⟨[], []⟩ ('v' :: ' ' :: '=' :: ' ' :: s) =
        Progress.pairLine? ⟨[], []⟩ ('v' :: ' ' :: '=' :: ' ' :: s) := rfl
    rw [hpair, Progress.pairLine?, pair?_assignment]
    cases value? (nestingLimit - 1) (skipBlanks s) with
    | none => rfl
    | some found =>
      obtain ⟨v, rest⟩ := found
      show (lineTail? rest).bind _ = (lineTail? rest).map _
      cases lineTail? rest <;> rfl
  have hlines : Progress.lines? (s.length + 4) ⟨[], []⟩ ('v' :: ' ' :: '=' :: ' ' :: s) =
      (Progress.line? ⟨[], []⟩ ('v' :: ' ' :: '=' :: ' ' :: s)).bind fun found =>
        Progress.lines? (s.length + 3) found.1 found.2 := by
    rw [Progress.lines?]
    rfl
  have hread : read? ("v = ".toList ++ s) =
      (Progress.lines? (s.length + 4) ⟨[], []⟩ ('v' :: ' ' :: '=' :: ' ' :: s)).map fun p => finish p.draft := rfl
  rw [hread, hlines, hline]
  cases value? (nestingLimit - 1) (skipBlanks s) with
  | none => rfl
  | some found =>
    rw [Option.bind_some, Option.bind_some, linesBehind?]
    cases lineTail? found.2 <;> rfl

/-- A document that starts by giving a value to `v` has this value under the name. -/
theorem get?_assignment {s : List Char} {t : Table} (h : read? ("v = ".toList ++ s) = some t) :
    ∃ v rest, value? (nestingLimit - 1) (skipBlanks s) = some (v, rest) ∧ t.get? "v" = some v := by
  rw [read?_assignment] at h
  obtain ⟨⟨v, rest⟩, hvalue, h⟩ := Option.bind_eq_some_iff.1 h
  obtain ⟨p, hlines, rfl⟩ := Option.map_eq_some_iff.1 h
  obtain ⟨behind, -, hlines⟩ := Option.bind_eq_some_iff.1 hlines
  have hfirst : Draft.Holds [("v", .leaf v)] "v" v := rfl
  have hholds : p.draft.Holds "v" v := Progress.holds_lines? hfirst hlines
  refine ⟨v, rest, hvalue, ?_⟩
  rw [get?_finish, hholds]
  rfl

/-- A value alone on the line is all that the document holds. -/
theorem read?_assignment_alone {s rest : List Char} {v : Value}
    (hvalue : value? (nestingLimit - 1) (skipBlanks s) = some (v, rest)) (htail : lineTail? rest = some []) :
    read? ("v = ".toList ++ s) = some [("v", v)] := by
  rw [read?_assignment, hvalue, Option.bind_some, linesBehind?, htail]
  rfl

end Speedtest.Toml
