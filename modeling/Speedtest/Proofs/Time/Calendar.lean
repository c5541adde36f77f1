import Speedtest.Time.Calendar

/-!
# Days and dates

Every number of days has a date that the calendar has, and the days of that date are the number again. A day is found in
its era of 400 years by its century, its group of four years, its year and its day there. Years are counted from March,
so a year has a day more than 365 exactly when the year after it is a leap year.
-/
namespace Speedtest.Time.Date

/-! ## Years -/

/-- A day of an era in its century, its group of four years and its year. -/
structure Placed (day century group year rest : Int) : Prop where
  day_eq : day = 36524 * century + 1461 * group + 365 * year + rest
  century_bounds : 0 ≤ century ∧ century ≤ 3
  group_bounds : 0 ≤ group ∧ group ≤ 24
  year_bounds : 0 ≤ year ∧ year ≤ 3
  rest_bounds : 0 ≤ rest ∧ rest ≤ 365
  /-- The last year of a group has a day more, but for the last group of a century that is not the last one. -/
  long : rest = 365 → year = 3 ∧ (group ≤ 23 ∨ century = 3)

theorem exists_placed {day : Int} (hlow : 0 ≤ day) (hhigh : day < 146097) :
    ∃ century group year rest, Placed day century group year rest := by
  refine ⟨min 3 (day / 36524), min 24 ((day - 36524 * min 3 (day / 36524)) / 1461), ?_⟩
  generalize hcentury : min 3 (day / 36524) = century
  generalize hgroup : min 24 ((day - 36524 * century) / 1461) = group
  refine ⟨min 3 ((day - 36524 * century - 1461 * group) / 365), ?_⟩
  generalize hyear : min 3 ((day - 36524 * century - 1461 * group) / 365) = year
  exact ⟨day - 36524 * century - 1461 * group - 365 * year, by omega, by omega, by omega, by omega, by omega, by omega⟩

section Placed

variable {day century group year rest : Int} (h : Placed day century group year rest)
include h

theorem Placed.yearOfEra_eq :
    (day - day / 1460 + day / 36524 - day / 146096) / 365 = 100 * century + 4 * group + year := by
  obtain ⟨hday, hcentury, hgroup, hyear, hrest, hlong⟩ := h
  by_cases hlast : day = 146096
  · omega
  · have hcenturies : day / 36524 = century := by omega
    have heras : day / 146096 = 0 := by omega
    have hlag : day / 1460 = 25 * century + group ∨
        day / 1460 = 25 * century + group + 1 ∧ year = 3 ∧ 365 ≤ 24 * century + group + rest := by omega
    omega

/-- The days of the years of the era before it. -/
theorem Placed.rest_eq :
    let y := 100 * century + 4 * group + year
    day - (365 * y + y / 4 - y / 100) = rest := by
  obtain ⟨hday, hcentury, hgroup, hyear, hrest, hlong⟩ := h
  have hfours : (100 * century + 4 * group + year) / 4 = 25 * century + group := by omega
  have hhundreds : (100 * century + 4 * group + year) / 100 = century := by omega
  intro y
  omega

theorem Placed.isLeap (hrest : rest = 365) (era : Int) :
    isLeap (100 * century + 4 * group + year + era * 400 + 1) = true := by
  obtain ⟨hday, hcentury, hgroup, hyear, -, hlong⟩ := h
  obtain ⟨rfl, hlast⟩ := hlong hrest
  simp only [Date.isLeap, Bool.and_eq_true, Bool.or_eq_true, beq_iff_eq, bne_iff_ne, ne_eq]
  omega

end Placed

/-! ## Months -/

def monthOf (fromMarch : Int) : Int := if fromMarch < 10 then fromMarch + 3 else fromMarch - 9

theorem monthOf_cases (fromMarch : Int) :
    fromMarch < 10 ∧ monthOf fromMarch = fromMarch + 3 ∨ 10 ≤ fromMarch ∧ monthOf fromMarch = fromMarch - 9 := by
  unfold monthOf
  split <;> omega

/-- A day of a year that starts in March, in its month. -/
structure InMonth (rest fromMarch day : Int) : Prop where
  day_eq : day = rest - (153 * fromMarch + 2) / 5 + 1
  fromMarch_bounds : 0 ≤ fromMarch ∧ fromMarch ≤ 11
  day_bounds : 1 ≤ day ∧ day ≤ 31
  short : fromMarch = 1 ∨ fromMarch = 3 ∨ fromMarch = 6 ∨ fromMarch = 8 → day ≤ 30
  february : fromMarch = 11 → day ≤ 29 ∧ (day = 29 → rest = 365)

theorem inMonth {rest : Int} (hlow : 0 ≤ rest) (hhigh : rest ≤ 365) :
    InMonth rest ((5 * rest + 2) / 153) (rest - (153 * ((5 * rest + 2) / 153) + 2) / 5 + 1) := by
  generalize hmonth : (5 * rest + 2) / 153 = fromMarch
  exact ⟨rfl, by omega, by omega, by omega, by omega⟩

section InMonth

variable {rest fromMarch day : Int} (h : InMonth rest fromMarch day)
include h

theorem InMonth.month_bounds : 1 ≤ monthOf fromMarch ∧ monthOf fromMarch ≤ 12 := by
  have hbounds := h.fromMarch_bounds
  have hmonth := monthOf_cases fromMarch
  omega

/-- The month has the day, where the year is a leap year when it has to be. -/
theorem InMonth.le_daysInMonth {year : Int} (hyear : rest = 365 → isLeap year = true) :
    day ≤ daysInMonth year (monthOf fromMarch).toNat := by
  obtain ⟨-, hbounds, hday, hshort, hfebruary⟩ := h
  by_cases htwo : fromMarch = 11
  · subst htwo
    obtain ⟨hle, hlast⟩ := hfebruary rfl
    show day ≤ ((if isLeap year then 29 else 28 : Nat) : Int)
    split
    case isTrue => exact hle
    case isFalse hleap =>
      have hday : day ≠ 29 := fun hday => hleap (hyear (hlast hday))
      omega
  · have hmonth := monthOf_cases fromMarch
    have hnotTwo : (monthOf fromMarch).toNat ≠ 2 := by omega
    rw [daysInMonth, if_neg hnotTwo]
    split
    case isTrue hthirty =>
      have hmarch : fromMarch = 1 ∨ fromMarch = 3 ∨ fromMarch = 6 ∨ fromMarch = 8 := by omega
      exact hshort hmarch
    case isFalse => exact hday.2

end InMonth

/-! ## Dates -/

/-- The date of a number of days, by the place of the day in its era and in its year. -/
structure Dated (days : Int) (d : Date) (century group year rest fromMarch : Int) : Prop where
  placed : Placed ((days + 719468) % 146097) century group year rest
  inMonth : InMonth rest fromMarch d.day
  month_eq : d.month = monthOf fromMarch
  year_eq : d.year = 100 * century + 4 * group + year + (days + 719468) / 146097 * 400 +
    if monthOf fromMarch ≤ 2 then 1 else 0

/-- Every day has its place in the cycles of the calendar. -/
theorem exists_dated (days : Int) :
    ∃ century group year rest fromMarch, Dated days (ofDays days) century group year rest fromMarch := by
  have hlow : 0 ≤ (days + 719468) % 146097 := Int.emod_nonneg _ (by decide)
  have hhigh : (days + 719468) % 146097 < 146097 := Int.emod_lt_of_pos _ (by decide)
  obtain ⟨century, group, year, rest, hplaced⟩ := exists_placed hlow hhigh
  have hmonth := inMonth hplaced.rest_bounds.1 hplaced.rest_bounds.2
  have hbounds := hmonth.month_bounds
  have hdate : ofDays days =
      ⟨100 * century + 4 * group + year + (days + 719468) / 146097 * 400 +
          if monthOf ((5 * rest + 2) / 153) ≤ 2 then 1 else 0,
        (monthOf ((5 * rest + 2) / 153)).toNat,
        (rest - (153 * ((5 * rest + 2) / 153) + 2) / 5 + 1).toNat⟩ := by
    have hrest := hplaced.rest_eq
    simp only [ofDays, hplaced.yearOfEra_eq, hrest]
    rfl
  refine ⟨century, group, year, rest, (5 * rest + 2) / 153, hplaced, ?_, ?_, ?_⟩
  · rw [hdate, Int.toNat_of_nonneg (by omega)]
    exact hmonth
  · rw [hdate, Int.toNat_of_nonneg (by omega)]
  · rw [hdate]

/-- The calendar has the date of every number of days. -/
theorem isValid_ofDays (days : Int) : (ofDays days).isValid = true := by
  obtain ⟨century, group, year, rest, fromMarch, hplaced, hmonth, hmonthEq, hyear⟩ := exists_dated days
  have hbounds := hmonth.month_bounds
  have hday := hmonth.day_bounds
  have hleap : rest = 365 → isLeap (ofDays days).year = true := by
    intro hrest
    have hmarch := hmonth.day_eq
    have hnumber := monthOf_cases fromMarch
    rw [hyear, if_pos (by omega)]
    exact hplaced.isLeap hrest _
  have hle := hmonth.le_daysInMonth hleap
  rw [← hmonthEq, Int.toNat_natCast] at hle
  simp only [isValid, Bool.and_eq_true, decide_eq_true_eq]
  omega

theorem daysInMonth_le (year : Int) (month : Nat) : daysInMonth year month ≤ 31 := by
  unfold daysInMonth
  split
  · split <;> decide
  · split <;> decide

/-- The numbers of a date that the calendar has have two digits at most. -/
theorem bounds_of_isValid {d : Date} (h : d.isValid = true) :
    (1 ≤ d.month ∧ d.month ≤ 12) ∧ 1 ≤ d.day ∧ d.day ≤ 31 := by
  simp only [isValid, Bool.and_eq_true, decide_eq_true_eq] at h
  obtain ⟨⟨hmonth, hfirst⟩, hlast⟩ := h
  exact ⟨hmonth, hfirst, Nat.le_trans hlast (daysInMonth_le d.year d.month)⟩

/-- The days of the date of a number of days are that number. -/
theorem toDays_ofDays (days : Int) : (ofDays days).toDays = days := by
  obtain ⟨century, group, year, rest, fromMarch, hplaced, hmonth, hmonthEq, hyear⟩ := exists_dated days
  generalize ofDays days = d at hmonth hmonthEq hyear
  have hnumber := monthOf_cases fromMarch
  have hmarchBounds := hmonth.fromMarch_bounds
  obtain ⟨hday, hcentury, hgroup, hyearBounds, -, -⟩ := hplaced
  have hmarch : ((d.month : Int) + 9) % 12 = fromMarch := by omega
  have hcounted : (if d.month ≤ 2 then d.year - 1 else d.year) =
      100 * century + 4 * group + year + (days + 719468) / 146097 * 400 := by
    rw [hyear]
    split
    case isTrue hearly => rw [if_pos (by omega), Int.add_sub_cancel]
    case isFalse hlate => rw [if_neg (by omega), Int.add_zero]
  have hdayOfYear := hmonth.day_eq
  have hdays := Int.emod_add_mul_ediv (days + 719468) 146097
  generalize (days + 719468) / 146097 = era at hcounted hdays
  have hera : (100 * century + 4 * group + year + era * 400) / 400 = era := by omega
  have hyearOfEra : (100 * century + 4 * group + year + era * 400) % 400 = 100 * century + 4 * group + year := by omega
  have hfours : (100 * century + 4 * group + year) / 4 = 25 * century + group := by omega
  have hhundreds : (100 * century + 4 * group + year) / 100 = century := by omega
  simp only [toDays, hcounted, hmarch, hera, hyearOfEra, hfours, hhundreds]
  omega

end Speedtest.Time.Date
