import DurableFlow.Timestamp

/-! # Days and dates

A day number and the date it stands for determine each other. A year counted from March begins after a
number of days of its era that grows with the year (`Date.firstDay`), and the year of a day is the last
one that has begun.
-/

namespace DurableFlow.Date

/-- The number of days of an era before one of its years. -/
def firstDay (year : Nat) : Nat := 365 * year + year / 4 - year / 100

/-- The number of days of an era before another one, leap days left out. -/
def plainDays (day : Nat) : Nat := day - day / 1460 + day / 36524 - day / 146096

theorem plainDays_le {a b : Nat} (le : a ≤ b) : plainDays a ≤ plainDays b := by
  unfold plainDays
  omega

theorem plainDays_firstDay : ∀ year < 400, 365 * year ≤ plainDays (firstDay year) ∧
    (0 < year → plainDays (firstDay year - 1) < 365 * year) := by
  decide +kernel

/-- The year of an era in which a day of the era lies. -/
def yearOf (day : Nat) : Nat := plainDays day / 365

section

variable {day : Nat} (inside : day < 146097)

include inside

theorem yearOf_lt : yearOf day < 400 := by
  unfold yearOf plainDays
  omega

theorem firstDay_yearOf_le : firstDay (yearOf day) ≤ day := by
  rcases Nat.lt_or_ge day (firstDay (yearOf day)) with before | begun
  · have positive : 0 < yearOf day := by
      rcases Nat.eq_zero_or_pos (yearOf day) with zero | positive
      · simp [zero, firstDay] at before
      · exact positive
    have first := (plainDays_firstDay _ (yearOf_lt inside)).2 positive
    have le := plainDays_le (Nat.le_sub_one_of_lt before)
    unfold yearOf at first le
    omega
  · exact begun

omit inside in
theorem lt_firstDay_yearOf (early : yearOf day < 399) : day < firstDay (yearOf day + 1) := by
  rcases Nat.lt_or_ge day (firstDay (yearOf day + 1)) with before | begun
  · exact before
  · have first := (plainDays_firstDay (yearOf day + 1) (by omega)).1
    have le := plainDays_le begun
    unfold yearOf at first le
    omega

end

/-- The date of a day of a year counted from March. -/
def ofDayOfYear (year : Int) (day : Nat) : Date :=
  let month := (5 * day + 2) / 153
  let ofMonth := day - (153 * month + 2) / 5 + 1
  if month < 10 then ⟨year, month + 3, ofMonth⟩ else ⟨year + 1, month - 9, ofMonth⟩

/-- The last day of a year counted from March, which is a leap day or the day before one. -/
def lastDay (year : Int) : Nat := if isLeapYear (year + 1) then 365 else 364

theorem isLeapYear_iff {year : Nat} (small : year < 400) (era : Int) :
    isLeapYear (era * 400 + year + 1) ↔ (year + 1) % 4 = 0 ∧ ((year + 1) % 100 ≠ 0 ∨ year = 399) := by
  have four : (era * 400 + year + 1) % 4 = ((year + 1) % 4 : Nat) := by omega
  have hundred : (era * 400 + year + 1) % 100 = ((year + 1) % 100 : Nat) := by omega
  have whole : (era * 400 + year + 1) % 400 = 0 ↔ year = 399 := by omega
  simp only [isLeapYear, four, hundred, whole, Bool.and_eq_true, Bool.or_eq_true, decide_eq_true_eq]
  omega

theorem exists_dayOfYear (n : Int) : ∃ (era : Int) (year day : Nat), year < 400 ∧
    n = era * 146097 + firstDay year + day - 719468 ∧ day ≤ lastDay (era * 400 + year) ∧
    ofDayNumber n = ofDayOfYear (era * 400 + year) day := by
  obtain ⟨day, ofEra⟩ : ∃ day : Nat, (n + 719468) % 146097 = day :=
    ⟨_, (Int.toNat_of_nonneg (by omega)).symm⟩
  have inside : day < 146097 := by omega
  have lower := firstDay_yearOf_le inside
  have bound := yearOf_lt inside
  refine ⟨(n + 719468) / 146097, yearOf day, day - firstDay (yearOf day), bound, by omega, ?_, ?_⟩
  · have leap := isLeapYear_iff bound ((n + 719468) / 146097)
    have upper := @lt_firstDay_yearOf day
    unfold lastDay
    unfold firstDay at lower upper ⊢
    split
    next leapYear => omega
    next commonYear =>
      rw [leap] at commonYear
      have early : yearOf day < 399 := by omega
      have next : (yearOf day + 1) / 4 - (yearOf day + 1) / 100 ≤ yearOf day / 4 - yearOf day / 100 := by
        omega
      specialize upper early
      omega
  · have year : ((day : Int) - day / 1460 + day / 36524 - day / 146096) / 365 = yearOf day := by
      unfold yearOf plainDays
      omega
    have rest : (day : Int) - (365 * yearOf day + yearOf day / 4 - yearOf day / 100) =
        (day - firstDay (yearOf day) : Nat) := by
      unfold firstDay at lower ⊢
      omega
    simp only [ofDayNumber, ofEra, year, rest, ofDayOfYear]
    -- Months are counted from March, so that a leap day ends its year.
    generalize day - firstDay (yearOf day) = d
    have month : (5 * (d : Int) + 2) / 153 = ((5 * d + 2) / 153 : Nat) := by omega
    have bounds : 153 * ((5 * d + 2) / 153) ≤ 5 * d + 2 := Nat.mul_div_le _ _
    rw [month]
    generalize (5 * d + 2) / 153 = m at bounds
    have ofMonth : (d : Int) - (153 * m + 2) / 5 + 1 = (d - (153 * m + 2) / 5 + 1 : Nat) := by omega
    rw [ofMonth]
    split <;> split
    · rfl
    · omega
    · omega
    · congr 1
      omega

theorem dayNumber_ofDayOfYear {era : Int} {year day : Nat} (small : year < 400) (last : day ≤ 365) :
    (ofDayOfYear (era * 400 + year) day).dayNumber = era * 146097 + firstDay year + day - 719468 := by
  unfold ofDayOfYear firstDay dayNumber
  dsimp only
  split
  · have : ¬ (5 * day + 2) / 153 + 3 ≤ 2 := by omega
    simp only [this, if_false]
    omega
  · have : (5 * day + 2) / 153 - 9 ≤ 2 := by omega
    simp only [this, if_true]
    omega

theorem lastDay_le (year : Int) : lastDay year ≤ 365 := by
  unfold lastDay
  split <;> omega

/-- The number of the date of a day is the number of that day. -/
theorem dayNumber_ofDayNumber (n : Int) : (ofDayNumber n).dayNumber = n := by
  obtain ⟨era, year, day, small, number, last, date⟩ := exists_dayOfYear n
  rw [date, dayNumber_ofDayOfYear small (Nat.le_trans last (lastDay_le _)), number]

/-- A day of a year has a date in the calendar. -/
structure InCalendar (date : Date) : Prop where
  month_pos : 1 ≤ date.month
  month_le : date.month ≤ 12
  day_pos : 1 ≤ date.day
  day_le : date.day ≤ monthLength date.year date.month

theorem inCalendar_ofDayOfYear {year : Int} {day : Nat} (last : day ≤ lastDay year) :
    InCalendar (ofDayOfYear year day) := by
  have le := lastDay_le year
  unfold ofDayOfYear
  dsimp only
  split
  next early =>
    refine ⟨by dsimp only; omega, by dsimp only; omega, by dsimp only; omega, ?_⟩
    dsimp only [monthLength]
    split
    · omega
    · split <;> omega
  next late =>
    have winter : (5 * day + 2) / 153 = 10 ∨ (5 * day + 2) / 153 = 11 := by omega
    refine ⟨by dsimp only; omega, by dsimp only; omega, by dsimp only; omega, ?_⟩
    unfold lastDay at last
    rcases winter with january | february
    · simp only [monthLength, january]
      simp
      omega
    · simp only [monthLength, february]
      simp
      split at last <;> rename_i leap <;> simp [leap] <;> omega

/-- The dates of the days from the first to the last one that a time may have are valid. -/
theorem isValid_ofDayNumber {n : Int} (low : -96465292 ≤ n) (high : n ≤ 95026236) :
    (ofDayNumber n).isValid := by
  obtain ⟨era, year, day, small, number, last, date⟩ := exists_dayOfYear n
  have calendar := inCalendar_ofDayOfYear last
  have within := lastDay_le (era * 400 + year)
  have years : minYear ≤ (ofDayOfYear (era * 400 + year) day).year ∧
      (ofDayOfYear (era * 400 + year) day).year ≤ maxYear := by
    unfold firstDay at number
    have eras : era = -656 ∨ -656 < era ∧ era < 655 ∨ era = 655 := by omega
    unfold minYear maxYear ofDayOfYear
    rcases eras with rfl | between | rfl
    all_goals
      dsimp only
      split <;> dsimp only <;> omega
  rw [date]
  simp only [isValid, Bool.and_eq_true, decide_eq_true_eq]
  exact ⟨⟨⟨⟨⟨years.1, years.2⟩, calendar.month_pos⟩, calendar.month_le⟩, calendar.day_pos⟩,
    calendar.day_le⟩

end DurableFlow.Date
