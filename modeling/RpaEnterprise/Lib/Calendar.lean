import Mathlib

/-!
# The Gregorian calendar

Days are counted from 1 January 1970, in both directions, and read as dates of
the Gregorian calendar.  Years have 365 days, leap years 366; a date that is not
29 February comes every year, and 29 February every four years but for the
hundreds that are not divisible by four hundred.
-/

namespace RpaEnterprise.Lib.Calendar

def isLeap (year : Int) : Bool :=
  year % 4 == 0 && (year % 100 != 0 || year % 400 == 0)

/-- Days from 1 January of the year 1 to 1 January of a year. -/
def yearStart (year : Int) : Int :=
  365 * (year - 1) + (year - 1) / 4 - (year - 1) / 100 + (year - 1) / 400

/-- Days from 1 January of the year 1 to 1 January 1970. -/
def epoch : Int := 719162

def monthLength (leap : Bool) (month : Nat) : Nat :=
  if month = 2 then (if leap then 29 else 28)
  else if month = 4 ∨ month = 6 ∨ month = 9 ∨ month = 11 then 30 else 31

/-- Days from 1 January to the first of a month. -/
def monthStart (leap : Bool) (month : Nat) : Nat :=
  ((List.range' 1 (month - 1)).map (monthLength leap)).sum

/-- A date of the calendar. -/
structure Date where
  year : Int
  month : Nat
  day : Nat
deriving Repr, DecidableEq

structure Date.Valid (date : Date) : Prop where
  month_pos : 1 ≤ date.month
  month_le : date.month ≤ 12
  day_pos : 1 ≤ date.day
  day_le : date.day ≤ monthLength (isLeap date.year) date.month

/-- The number of the day with a date. -/
def dayNumber (date : Date) : Int :=
  yearStart date.year + monthStart (isLeap date.year) date.month + (date.day - 1) - epoch

/-- The year of a day. -/
def yearOf (day : Int) : Int :=
  let count := day + epoch
  let estimate := 400 * count / 146097 + 1
  if count < yearStart estimate then estimate - 1
  else if yearStart (estimate + 1) ≤ count then estimate + 1
  else estimate

/-- The month of the day of a year, counted from zero. -/
def monthOf (leap : Bool) (dayOfYear : Nat) : Nat :=
  ((List.range' 1 12).filter fun month => monthStart leap month ≤ dayOfYear).length

/-- The date of a day. -/
def dateOf (day : Int) : Date :=
  let year := yearOf day
  let dayOfYear := (day + epoch - yearStart year).toNat
  let month := monthOf (isLeap year) dayOfYear
  ⟨year, month, dayOfYear - monthStart (isLeap year) month + 1⟩

/-- The weekday of a day, from Sunday on. -/
def weekday (day : Int) : Nat := ((day + 4) % 7).toNat

/-! ## Years -/

theorem isLeap_eq_true_iff {year : Int} :
    isLeap year = true ↔ year % 4 = 0 ∧ (year % 100 ≠ 0 ∨ year % 400 = 0) := by
  simp [isLeap]

theorem isLeap_eq_false_iff {year : Int} :
    isLeap year = false ↔ year % 4 ≠ 0 ∨ (year % 100 = 0 ∧ year % 400 ≠ 0) := by
  rw [← Bool.not_eq_true, isLeap_eq_true_iff]
  omega

def yearLength (leap : Bool) : Nat := if leap then 366 else 365

theorem yearStart_succ (year : Int) : yearStart (year + 1) = yearStart year + yearLength (isLeap year) := by
  unfold yearStart yearLength
  cases leap : isLeap year with
  | true =>
    rw [isLeap_eq_true_iff] at leap
    simp only [if_true]
    omega
  | false =>
    rw [isLeap_eq_false_iff] at leap
    simp only [Bool.false_eq_true, if_false]
    omega

theorem yearStart_mono {one two : Int} (le : one ≤ two) : yearStart one ≤ yearStart two := by
  unfold yearStart
  omega

theorem yearOf_spec (day : Int) :
    yearStart (yearOf day) ≤ day + epoch ∧ day + epoch < yearStart (yearOf day + 1) := by
  unfold yearOf
  generalize day + epoch = count
  dsimp only
  split
  · rename_i early
    unfold yearStart at *
    omega
  · rename_i late
    split
    · unfold yearStart at *
      omega
    · unfold yearStart at *
      omega

theorem yearOf_eq {day year : Int} (low : yearStart year ≤ day + epoch)
    (high : day + epoch < yearStart (year + 1)) : yearOf day = year := by
  obtain ⟨least, greatest⟩ := yearOf_spec day
  rcases Int.lt_trichotomy (yearOf day) year with less | same | more
  · have mono := yearStart_mono (Int.add_one_le_of_lt less)
    omega
  · exact same
  · have mono := yearStart_mono (Int.add_one_le_of_lt more)
    omega

/-! ## Months -/

/-- Every day of a year is in one of its months. -/
theorem monthOf_spec (leap : Bool) {dayOfYear : Nat} (within : dayOfYear < yearLength leap) :
    1 ≤ monthOf leap dayOfYear ∧ monthOf leap dayOfYear ≤ 12 ∧
      monthStart leap (monthOf leap dayOfYear) ≤ dayOfYear ∧
        dayOfYear < monthStart leap (monthOf leap dayOfYear) +
          monthLength leap (monthOf leap dayOfYear) := by
  have all : ∀ leap : Bool, ∀ dayOfYear < yearLength leap,
      1 ≤ monthOf leap dayOfYear ∧ monthOf leap dayOfYear ≤ 12 ∧
        monthStart leap (monthOf leap dayOfYear) ≤ dayOfYear ∧
          dayOfYear < monthStart leap (monthOf leap dayOfYear) +
            monthLength leap (monthOf leap dayOfYear) := by
    decide +kernel
  exact all leap dayOfYear within

/-- A day of a month is in no other month. -/
theorem monthOf_eq (leap : Bool) {month day : Nat} (positive : 1 ≤ month) (month_le : month ≤ 12)
    (within : day < monthLength leap month) :
    monthStart leap month + day < yearLength leap ∧ monthOf leap (monthStart leap month + day) = month := by
  have all : ∀ leap : Bool, ∀ month < 12, ∀ day < monthLength leap (month + 1),
      monthStart leap (month + 1) + day < yearLength leap ∧
        monthOf leap (monthStart leap (month + 1) + day) = month + 1 := by
    decide +kernel
  obtain ⟨less, rfl⟩ := Nat.exists_eq_add_of_le' positive
  exact all leap less (by omega) day within

/-! ## Dates -/

theorem dateOf_valid (day : Int) : (dateOf day).Valid := by
  obtain ⟨least, greatest⟩ := yearOf_spec day
  rw [yearStart_succ] at greatest
  have within : (day + epoch - yearStart (yearOf day)).toNat < yearLength (isLeap (yearOf day)) := by
    omega
  obtain ⟨positive, twelve, low, high⟩ := monthOf_spec (isLeap (yearOf day)) within
  refine ⟨positive, twelve, Nat.le_add_left _ _, ?_⟩
  dsimp only [dateOf]
  omega

/-- A day has the number of its date. -/
theorem dayNumber_dateOf (day : Int) : dayNumber (dateOf day) = day := by
  obtain ⟨least, greatest⟩ := yearOf_spec day
  rw [yearStart_succ] at greatest
  have within : (day + epoch - yearStart (yearOf day)).toNat < yearLength (isLeap (yearOf day)) := by
    omega
  obtain ⟨_, _, low, _⟩ := monthOf_spec (isLeap (yearOf day)) within
  dsimp only [dayNumber, dateOf]
  omega

/-- A date is the date of its day. -/
theorem dateOf_dayNumber {date : Date} (valid : date.Valid) : dateOf (dayNumber date) = date := by
  obtain ⟨year, month, day⟩ := date
  obtain ⟨month_pos, month_le, day_pos, day_le⟩ := valid
  dsimp only at month_pos month_le day_pos day_le
  obtain ⟨less, rfl⟩ := Nat.exists_eq_add_of_le' day_pos
  obtain ⟨within, same⟩ := monthOf_eq (isLeap year) month_pos month_le (Nat.lt_of_succ_le day_le)
  have count : dayNumber ⟨year, month, less + 1⟩ + epoch =
      yearStart year + (monthStart (isLeap year) month + less : Nat) := by
    dsimp only [dayNumber]
    omega
  have inYear : yearOf (dayNumber ⟨year, month, less + 1⟩) = year := by
    apply yearOf_eq
    · omega
    · rw [yearStart_succ]
      omega
  dsimp only [dateOf]
  rw [inYear, count]
  have offset : (yearStart year + (monthStart (isLeap year) month + less : Nat) - yearStart year).toNat =
      monthStart (isLeap year) month + less := by omega
  rw [offset, same]
  congr 1
  omega

/-- A date is in its year. -/
theorem dayNumber_bounds {date : Date} (valid : date.Valid) :
    yearStart date.year ≤ dayNumber date + epoch ∧ dayNumber date + epoch < yearStart (date.year + 1) := by
  have inYear : yearOf (dayNumber date) = date.year := congrArg Date.year (dateOf_dayNumber valid)
  rw [← inYear]
  exact yearOf_spec _

/-- A date of the next year comes within two years. -/
theorem dayNumber_next_year {day : Int} {date : Date} (valid : date.Valid)
    (next : date.year = yearOf day + 1) : day < dayNumber date ∧ dayNumber date ≤ day + 732 := by
  obtain ⟨low, high⟩ := dayNumber_bounds valid
  obtain ⟨least, greatest⟩ := yearOf_spec day
  rw [next] at low high
  rw [yearStart_succ] at high
  have length : yearStart (yearOf day + 1) ≤ yearStart (yearOf day) + 366 := by
    rw [yearStart_succ]
    unfold yearLength
    split <;> omega
  have length' : yearLength (isLeap (yearOf day + 1)) ≤ 366 := by
    unfold yearLength
    split <;> omega
  omega

/-- A day of the month that common years do not have is 29 February. -/
theorem leap_day {leap : Bool} {month day : Nat} (within : day ≤ monthLength leap month)
    (uncommon : ¬ day ≤ monthLength false month) : leap = true ∧ month = 2 ∧ day = 29 := by
  unfold monthLength at within uncommon
  cases leap with
  | false => exact absurd within uncommon
  | true =>
    split at uncommon
    · rename_i february
      simp only [february, if_true] at within
      simp only [Bool.false_eq_true, if_false] at uncommon
      exact ⟨rfl, february, by omega⟩
    · rename_i other
      simp only [other, if_false] at within
      exact absurd within uncommon

theorem monthLength_common_le (leap : Bool) (month : Nat) :
    28 ≤ monthLength false month ∧ monthLength false month ≤ monthLength leap month := by
  unfold monthLength
  cases leap with
  | false =>
    simp only [Bool.false_eq_true, if_false]
    split
    · omega
    · split <;> omega
  | true =>
    simp only [Bool.false_eq_true, if_false, if_true]
    split
    · omega
    · split <;> omega

theorem leap_day_valid {year : Int} (leap : isLeap year = true) : (Date.mk year 2 29).Valid := by
  refine ⟨Nat.le_of_ble_eq_true rfl, Nat.le_of_ble_eq_true rfl, Nat.le_of_ble_eq_true rfl, ?_⟩
  dsimp only
  rw [leap]
  decide

theorem dayNumber_leap_day {year : Int} (leap : isLeap year = true) :
    dayNumber ⟨year, 2, 29⟩ = yearStart year + 59 - epoch := by
  dsimp only [dayNumber]
  rw [leap]
  have months : monthStart true 2 = 31 := by decide
  omega

/-- After the leap day before a hundred that is not divisible by four hundred,
the next one is eight years later. -/
theorem leap_day_gap {year next : Int} (last : year % 400 = 96) (leap : isLeap next = true)
    (later : year < next) :
    dayNumber ⟨year, 2, 29⟩ + 2921 ≤ dayNumber ⟨next, 2, 29⟩ := by
  have leapYear : isLeap year = true := isLeap_eq_true_iff.mpr (by omega)
  have eight : year + 8 ≤ next := by
    rw [isLeap_eq_true_iff] at leap
    omega
  have mono := yearStart_mono eight
  have days : yearStart (year + 8) = yearStart year + 2921 := by
    unfold yearStart
    omega
  rw [dayNumber_leap_day leapYear, dayNumber_leap_day leap]
  omega

/-! ## Weekdays -/

theorem weekday_lt (day : Int) : weekday day < 7 := by
  unfold weekday
  omega

/-- The first week of a month has every weekday. -/
theorem exists_weekday (year : Int) (month : Nat) {day : Nat} (weekday_lt : day < 7) :
    ∃ date, 1 ≤ date ∧ date ≤ 7 ∧ weekday (dayNumber ⟨year, month, date⟩) = day := by
  let first := weekday (dayNumber ⟨year, month, 1⟩)
  refine ⟨(day + 7 - first) % 7 + 1, by omega, by omega, ?_⟩
  have shift : dayNumber ⟨year, month, (day + 7 - first) % 7 + 1⟩ =
      dayNumber ⟨year, month, 1⟩ + ((day + 7 - first) % 7 : Nat) := by
    dsimp only [dayNumber]
    omega
  rw [shift]
  dsimp only [first]
  unfold weekday
  omega

end RpaEnterprise.Lib.Calendar
