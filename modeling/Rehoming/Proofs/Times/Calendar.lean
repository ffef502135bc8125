import Mathlib.Tactic.IntervalCases
import Rehoming.Timestamp

/-! The calendar. A day of an era of 400 years is found by century, span of four years and year, of
which only the last one of a span, and of an era, can be a day longer; and then by the month, where
years begin in March. Main statements: every day has a date that there is, and is found by it. -/

namespace Rehoming.Timestamp

/-! ## Years -/

/-- A day of an era by century, span of four years, year and day. -/
structure DayOfEra (day century span year rest : Int) : Prop where
  whole : day = 36524 * century + 1461 * span + 365 * year + rest
  centuries : 0 ≤ century ∧ century ≤ 3
  spans : 0 ≤ span ∧ span ≤ 24
  years : 0 ≤ year ∧ year ≤ 3
  days : 0 ≤ rest ∧ rest ≤ 365
  /-- Only the fourth year of a span is longer; that of the last span of a century only if it is
  also that of the era. -/
  longer : rest = 365 → year = 3 ∧ (span = 24 → century = 3)

theorem exists_century {day : Int} (low : 0 ≤ day) (high : day < 146097) :
    ∃ century rest, day = 36524 * century + rest ∧ 0 ≤ century ∧ century ≤ 3 ∧ 0 ≤ rest ∧
      rest ≤ 36524 ∧ (rest = 36524 → century = 3) :=
  ⟨min (day / 36524) 3, day - 36524 * min (day / 36524) 3, by omega⟩

theorem exists_span {day : Int} (low : 0 ≤ day) (high : day ≤ 36524) :
    ∃ span rest, day = 1461 * span + rest ∧ 0 ≤ span ∧ span ≤ 24 ∧ 0 ≤ rest ∧ rest ≤ 1460 ∧
      (rest = 1460 → span = 24 → day = 36524) :=
  ⟨day / 1461, day - 1461 * (day / 1461), by omega⟩

theorem exists_year {day : Int} (low : 0 ≤ day) (high : day ≤ 1460) :
    ∃ year rest, day = 365 * year + rest ∧ 0 ≤ year ∧ year ≤ 3 ∧ 0 ≤ rest ∧ rest ≤ 365 ∧
      (rest = 365 → year = 3 ∧ day = 1460) :=
  ⟨min (day / 365) 3, day - 365 * min (day / 365) 3, by omega⟩

theorem exists_dayOfEra {day : Int} (low : 0 ≤ day) (high : day < 146097) :
    ∃ century span year rest, DayOfEra day century span year rest := by
  obtain ⟨century, inCentury, rfl, c, c', low, high, last⟩ := exists_century low high
  obtain ⟨span, inSpan, rfl, s, s', low, high, last'⟩ := exists_span low high
  obtain ⟨year, rest, rfl, y, y', low, high, last''⟩ := exists_year low high
  refine ⟨century, span, year, rest, by omega, ⟨c, c'⟩, ⟨s, s'⟩, ⟨y, y'⟩, ⟨low, high⟩,
    fun longer => ?_⟩
  obtain ⟨fourth, whole⟩ := last'' longer
  exact ⟨fourth, fun same => last (last' whole same)⟩

/-- The year of the era as it is calculated: by how many years would have gone by if all had as many
days, once the days of leap years are left out. -/
theorem DayOfEra.year_eq {day century span year rest : Int}
    (h : DayOfEra day century span year rest) :
    (day - day / 1460 + day / 36524 - day / 146096) / 365 = 100 * century + 4 * span + year := by
  obtain ⟨whole, centuries, spans, years, days, longer⟩ := h
  have more : day / 1460 = 25 * century + span + 1 →
      1460 ≤ 24 * century + span + 365 * year + rest := by omega
  have less : day / 1460 = 25 * century + span →
      24 * century + span + 365 * year + rest < 1460 := by omega
  have either : day / 1460 = 25 * century + span ∨ day / 1460 = 25 * century + span + 1 := by omega
  by_cases last : day = 146096
  · have all : century = 3 ∧ span = 24 ∧ year = 3 := by omega
    omega
  · have before : day / 146096 = 0 := by omega
    have centuries : day / 36524 = century := by omega
    rw [before, centuries]
    clear before centuries
    omega

/-- The days of the years of an era that are over. -/
theorem DayOfEra.days_eq {day century span year rest : Int}
    (h : DayOfEra day century span year rest) :
    365 * (100 * century + 4 * span + year) + (100 * century + 4 * span + year) / 4 -
      (100 * century + 4 * span + year) / 100 = day - rest := by
  obtain ⟨whole, centuries, spans, years, days, longer⟩ := h
  have quarter : (100 * century + 4 * span + year) / 4 = 25 * century + span := by omega
  have hundredth : (100 * century + 4 * span + year) / 100 = century := by omega
  rw [quarter, hundredth, whole]
  omega

/-- A year of an era, and a day of it. A year that starts in March has one more day if the next year
is a leap year. -/
structure InEra (era year day : Int) : Prop where
  years : 0 ≤ year ∧ year < 400
  days : 0 ≤ day ∧ day ≤ 365
  leap : day = 365 → isLeapYear (year + era * 400 + 1) = true

/-- A date from the year of an era and the day of that year. -/
def dateAt (era year day : Int) : Int × Nat × Nat :=
  let m := (5 * day + 2) / 153
  let dayOfMonth := day - (153 * m + 2) / 5 + 1
  let month := if m < 10 then m + 3 else m - 9
  (year + era * 400 + (if month ≤ 2 then 1 else 0), month.toNat, dayOfMonth.toNat)

/-- The number of a day since the start of 1970. -/
def dayNumber (era year day : Int) : Int :=
  era * 146097 + (365 * year + year / 4 - year / 100 + day) - 719468

/-- Every day is in a year of an era. -/
theorem exists_inEra (days : Int) : ∃ era year day, InEra era year day ∧
    days = dayNumber era year day ∧ dateOfDays days = dateAt era year day := by
  obtain ⟨century, span, year, rest, h⟩ :=
    exists_dayOfEra (Int.emod_nonneg (days + 719468) (by decide))
      (Int.emod_lt_of_pos (days + 719468) (by decide))
  have yearOfEra := h.year_eq
  have elapsed := h.days_eq
  refine ⟨(days + 719468) / 146097, 100 * century + 4 * span + year, rest,
    ⟨?_, h.days, fun last => ?_⟩, ?_, ?_⟩
  · obtain ⟨-, centuries, spans, years, -, -⟩ := h
    omega
  · obtain ⟨-, centuries, spans, years, -, longer⟩ := h
    obtain ⟨rfl, last⟩ := longer last
    generalize (days + 719468) / 146097 = era
    simp only [isLeapYear, Bool.and_eq_true, Bool.or_eq_true, beq_iff_eq, bne_iff_ne]
    refine ⟨by omega, ?_⟩
    by_cases ofCentury : span = 24
    · obtain rfl := last ofCentury
      exact .inr (by omega)
    · exact .inl (by omega)
  · rw [dayNumber, elapsed]
    have split := Int.mul_ediv_add_emod (days + 719468) 146097
    omega
  · have dayOfYear : (days + 719468) % 146097 - (365 * (100 * century + 4 * span + year) +
        (100 * century + 4 * span + year) / 4 - (100 * century + 4 * span + year) / 100) =
          rest := by
      rw [elapsed]
      exact Int.sub_sub_self ..
    simp only [dateOfDays, dateAt, yearOfEra, dayOfYear]

/-! ## Dates -/

theorem daysInMonth_le (year : Int) (month : Nat) : daysInMonth year month ≤ 31 := by
  unfold daysInMonth
  repeat' split
  all_goals decide

/-- A date that there is. -/
structure IsDate (year : Int) (month day : Nat) : Prop where
  months : 1 ≤ month ∧ month ≤ 12
  days : 1 ≤ day ∧ day ≤ daysInMonth year month

variable {era year day : Int}

theorem InEra.isDate (h : InEra era year day) :
    IsDate (dateAt era year day).1 (dateAt era year day).2.1 (dateAt era year day).2.2 := by
  obtain ⟨-, ⟨low, high⟩, leap⟩ := h
  obtain ⟨m, hm⟩ : ∃ m, m = (5 * day + 2) / 153 := ⟨_, rfl⟩
  have lowest : 0 ≤ m := by omega
  have highest : m ≤ 11 := by omega
  simp only [dateAt, ← hm]
  interval_cases m
  case «11» => -- February, where the longer year ends
    refine ⟨by decide, ?_⟩
    by_cases last : day = 365
    · simp [daysInMonth, leap last, last]
    · simp [daysInMonth]
      split <;> omega
  all_goals
    refine ⟨by decide, ?_⟩
    simp [daysInMonth]
    omega

theorem InEra.daysFromDate_dateAt (h : InEra era year day) :
    daysFromDate (dateAt era year day).1 (dateAt era year day).2.1 (dateAt era year day).2.2 =
      dayNumber era year day := by
  obtain ⟨⟨low, high⟩, ⟨low', high'⟩, -⟩ := h
  have eras : (year + era * 400) / 400 = era := by omega
  have years : (year + era * 400) % 400 = year := by omega
  obtain ⟨m, hm⟩ : ∃ m, m = (5 * day + 2) / 153 := ⟨_, rfl⟩
  have lowest : 0 ≤ m := by omega
  have highest : m ≤ 11 := by omega
  simp only [dateAt, daysFromDate, dayNumber, ← hm]
  clear low high
  interval_cases m
  all_goals
    simp [eras, years]
    generalize year / 4 = quarters, year / 100 = hundredths
    omega

/-- Every day has a date, and the date finds it. -/
theorem date_of_day (days : Int) :
    IsDate (dateOfDays days).1 (dateOfDays days).2.1 (dateOfDays days).2.2 ∧
      daysFromDate (dateOfDays days).1 (dateOfDays days).2.1 (dateOfDays days).2.2 = days := by
  obtain ⟨era, year, day, h, number, date⟩ := exists_inEra days
  rw [date, h.daysFromDate_dateAt]
  exact ⟨h.isDate, number.symm⟩

end Rehoming.Timestamp
