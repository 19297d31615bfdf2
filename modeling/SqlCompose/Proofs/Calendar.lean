import Mathlib.Tactic.IntervalCases
import Mathlib.Tactic.SplitIfs
import SqlCompose.Time.Timestamp

/-! The date of a count of days has that count, and is on the calendar. -/
namespace SqlCompose.Time

def yearOfEra (day : Int) : Int := (day - day / 1460 + day / 36524 - day / 146096) / 365

def yearStart (year : Int) : Int := 365 * year + year / 4 - year / 100

/-- A day of an era by its century, its span of four years, its year in that span and its day in
that year. A leap day is the last of a span, but for a century's last span, and the last of an
era. -/
structure Parts (day century span year rest : Int) : Prop where
  sum : day = 36524 * century + 1461 * span + 365 * year + rest
  century_le : 0 ≤ century ∧ century ≤ 3
  span_le : 0 ≤ span ∧ span ≤ 24
  year_le : 0 ≤ year ∧ year ≤ 3
  rest_le : 0 ≤ rest ∧ rest ≤ 365
  leap : rest = 365 → year = 3 ∧ (span = 24 → century = 3)

/-- The last day of an era and the last of a span are one more than the years before them hold, so
the quotients alone do not give the parts. -/
theorem exists_parts (day : Int) (least : 0 ≤ day) (most : day < 146097) :
    ∃ century span year rest, Parts day century span year rest := by
  by_cases last : day = 146096
  · exact ⟨3, 24, 3, 365, by omega, by omega, by omega, by omega, by omega, by omega⟩
  · have century : day / 36524 ≤ 3 := by omega
    have centuryDay : day = 36524 * (day / 36524) + day % 36524 := by omega
    have span : day % 36524 / 1461 ≤ 24 := by omega
    by_cases leap : day % 36524 % 1461 = 1460
    · refine ⟨day / 36524, day % 36524 / 1461, 3, 365, ?_, ?_, ?_, ?_, ?_, ?_⟩ <;> omega
    · refine ⟨day / 36524, day % 36524 / 1461, day % 36524 % 1461 / 365,
        day % 36524 % 1461 % 365, ?_, ?_, ?_, ?_, ?_, ?_⟩ <;> omega

variable {day century span year rest : Int}

theorem Parts.yearOfEra (parts : Parts day century span year rest) :
    yearOfEra day = 100 * century + 4 * span + year := by
  obtain ⟨sum, century_le, span_le, year_le, rest_le, leap⟩ := parts
  unfold Time.yearOfEra
  by_cases last : day = 146096
  · subst last
    omega
  · have centuries : day / 36524 = century := by omega
    have eras : day / 146096 = 0 := by omega
    have spans : day / 1460 = 25 * century + span ∨ day / 1460 = 25 * century + span + 1 := by
      omega
    rw [centuries, eras]
    omega

theorem Parts.yearStart (parts : Parts day century span year rest) :
    yearStart (100 * century + 4 * span + year) = day - rest := by
  obtain ⟨sum, century_le, span_le, year_le, rest_le, leap⟩ := parts
  have spans : (100 * century + 4 * span + year) / 4 = 25 * century + span := by omega
  have centuries : (100 * century + 4 * span + year) / 100 = century := by omega
  rw [Time.yearStart, spans, centuries]
  omega

theorem Parts.leap_year (parts : Parts day century span year 365) (era : Int) :
    isLeapYear (100 * century + 4 * span + year + era * 400 + 1) = true := by
  obtain ⟨sum, century_le, span_le, year_le, rest_le, leap⟩ := parts
  obtain ⟨rfl, ends⟩ := leap rfl
  simp only [isLeapYear, Bool.and_eq_true, Bool.or_eq_true, decide_eq_true_eq]
  refine ⟨by omega, ?_⟩
  by_cases final : span = 24
  · right
    have := ends final
    omega
  · left
    omega

def dateIn (year day : Int) : Date :=
  let month := (5 * day + 2) / 153
  let dayOfMonth := (day - (153 * month + 2) / 5 + 1).toNat
  if month < 10 then ⟨year, (month + 3).toNat, dayOfMonth⟩
  else ⟨year + 1, (month - 9).toNat, dayOfMonth⟩

theorem month_bounds (day : Int) (least : 0 ≤ day) (most : day ≤ 365) :
    0 ≤ (5 * day + 2) / 153 ∧ (5 * day + 2) / 153 ≤ 11 ∧
      (153 * ((5 * day + 2) / 153) + 2) / 5 ≤ day ∧
        day < (153 * ((5 * day + 2) / 153 + 1) + 2) / 5 := by
  omega

theorem Parts.ofDays (days : Int)
    (parts : Parts ((days + epochShift) % daysInEra) century span year rest) :
    Date.ofDays days = dateIn
      (100 * century + 4 * span + year + (days + epochShift) / daysInEra * 400) rest := by
  have first := parts.yearOfEra
  have start := parts.yearStart
  have within : (days + epochShift) % daysInEra - (365 * (100 * century + 4 * span + year) +
      (100 * century + 4 * span + year) / 4 - (100 * century + 4 * span + year) / 100) = rest := by
    unfold Time.yearStart at start
    omega
  obtain ⟨earliest, latest, _⟩ := month_bounds rest parts.rest_le.1 parts.rest_le.2
  unfold Time.yearOfEra at first
  simp only [Date.ofDays, dateIn, first, within]
  split
  · next early => rw [if_neg (by omega)]
  · next late => rw [if_pos (by omega)]

theorem days_dateIn (year day : Int) (least : 0 ≤ day) (most : day ≤ 365) :
    (dateIn year day).days =
      year / 400 * daysInEra + yearStart (year % 400) + day - epochShift := by
  obtain ⟨earliest, latest, begun, _⟩ := month_bounds day least most
  simp only [dateIn, Time.yearStart]
  generalize (5 * day + 2) / 153 = month at earliest latest begun ⊢
  split
  · next early =>
    have late : ¬ (month + 3).toNat ≤ 2 := by omega
    have back : (((month + 3).toNat : Int) + 9) % 12 = month := by omega
    simp only [Date.days, late, if_false, back]
    omega
  · next late =>
    have early : (month - 9).toNat ≤ 2 := by omega
    have back : (((month - 9).toNat : Int) + 9) % 12 = month := by omega
    simp only [Date.days, early, if_true, back, Int.add_sub_cancel]
    omega

theorem exists_dateIn (year day : Int) (least : 0 ≤ day) (most : day ≤ 365)
    (leap : day = 365 → isLeapYear (year + 1) = true) : (dateIn year day).exists = true := by
  obtain ⟨earliest, latest, begun, ended⟩ := month_bounds day least most
  simp only [dateIn]
  generalize (5 * day + 2) / 153 = month at earliest latest begun ended ⊢
  simp only [Date.exists, Bool.and_eq_true, decide_eq_true_eq]
  by_cases february : month = 11
  · subst february
    by_cases final : day = 365
    · simp [daysInMonth, leap final, final]
    · simp [daysInMonth]
      split <;> omega
  · interval_cases month <;> simp [daysInMonth] <;> omega

theorem exists_parts_ofDays (days : Int) :
    ∃ century span year rest, Parts ((days + epochShift) % daysInEra) century span year rest :=
  exists_parts _ (Int.emod_nonneg _ (by decide)) (Int.emod_lt_of_pos _ (by decide))

theorem days_ofDays (days : Int) : (Date.ofDays days).days = days := by
  obtain ⟨century, span, year, rest, parts⟩ := exists_parts_ofDays days
  have start := parts.yearStart
  obtain ⟨-, century_le, span_le, year_le, rest_le, -⟩ := id parts
  have era : (100 * century + 4 * span + year + (days + epochShift) / daysInEra * 400) / 400 =
      (days + epochShift) / daysInEra := by omega
  have inEra : (100 * century + 4 * span + year + (days + epochShift) / daysInEra * 400) % 400 =
      100 * century + 4 * span + year := by omega
  have whole := Int.ediv_mul_add_emod (days + epochShift) daysInEra
  rw [parts.ofDays, days_dateIn _ _ rest_le.1 rest_le.2, era, inEra, start]
  omega

theorem exists_ofDays (days : Int) : (Date.ofDays days).exists = true := by
  obtain ⟨century, span, year, rest, parts⟩ := exists_parts_ofDays days
  rw [parts.ofDays]
  refine exists_dateIn _ _ parts.rest_le.1 parts.rest_le.2 fun final => ?_
  subst final
  exact parts.leap_year _

theorem daysInMonth_le (year : Int) (month : Nat) : daysInMonth year month ≤ 31 := by
  unfold daysInMonth
  split_ifs <;> decide

/-- Dates with years of four digits are far from the ends of what a timestamp may name. -/
theorem days_fourDigits (date : Date) (calendar : date.exists = true)
    (year : 0 ≤ date.year ∧ date.year ≤ 9999) :
    firstSecond ≤ date.days * secondsInDay ∧
      date.days * secondsInDay + secondsInDay ≤ lastSecond := by
  have first : firstSecond = -96465292 * secondsInDay := by decide
  have last : lastSecond = 95026237 * secondsInDay - 1 := by decide
  rw [first, last]
  simp only [Date.exists, Bool.and_eq_true, decide_eq_true_eq] at calendar
  have short := daysInMonth_le date.year date.month
  simp only [Date.days, epochShift, daysInEra, secondsInDay]
  split <;> constructor <;> omega

end SqlCompose.Time
