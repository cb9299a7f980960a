import RpaEnterprise.Lib.Calendar
import RpaEnterprise.Lib.Successive
import RpaEnterprise.Runtime.CronSemantics

/-!
# The fires of a schedule in UTC

In UTC the clock shows the date of the Gregorian calendar.  Its year is shown
without the era, and the weekday is that of the shown date, with years of two
digits in the twentieth century.  The walk over the minutes ends after five
years, so that a schedule of 29 February alone has no next fire when a year
without a leap day is on the way.
-/

namespace RpaEnterprise.Runtime.CronSchedule

open Lib Lib.Calendar

/-! ## The clock in UTC -/

/-- The year of `Date.UTC(year, …)` for the year the formatter shows. -/
def shownYear (year : Int) : Int :=
  let shown := if year ≤ 0 then 1 - year else year
  if shown ≤ 99 then 1900 + shown else shown

/-- `new Date(Date.UTC(year, month - 1, day)).getUTCDay()` for the parts of a day. -/
def shownWeekday (day : Int) : Nat :=
  let date := dateOf day
  weekday (dayNumber ⟨shownYear date.year, date.month, date.day⟩)

/-- What the formatter of UTC shows. -/
def utcParts (instant : Int) : LocalDateParts :=
  let date := dateOf (dayOf instant)
  { month := date.month
    day := date.day
    hour := hourOf instant
    minute := minuteOf instant
    dayOfWeek := shownWeekday (dayOf instant) }

/-- From the year 100 on the weekday is right. -/
theorem shownWeekday_eq {day : Int} (late : 100 ≤ (dateOf day).year) : shownWeekday day = weekday day := by
  have shown : shownYear (dateOf day).year = (dateOf day).year := by
    unfold shownYear
    dsimp only
    rw [if_neg (by omega), if_neg (by omega)]
  unfold shownWeekday
  dsimp only
  rw [shown, dayNumber_dateOf]

theorem cronMatches_utcParts_iff {schedule : ParsedCronExpression} {instant : Int} :
    CronMatches schedule (utcParts instant) = true ↔
      minuteOf instant ∈ schedule.minute.values ∧ hourOf instant ∈ schedule.hour.values ∧
        (dateOf (dayOf instant)).day ∈ schedule.dayOfMonth.values ∧
          (dateOf (dayOf instant)).month ∈ schedule.month.values ∧
            shownWeekday (dayOf instant) ∈ schedule.dayOfWeek.values := by
  simp [CronMatches, utcParts, and_assoc]

/-- The instant of a time of a day. -/
def instantOf (day : Int) (hour minute : Nat) : Int :=
  day * dayMs + hour * hourMs + minute * minuteMs

section InstantOf

variable {day : Int} {hour minute : Nat}

theorem dayOf_instantOf (hour_le : hour ≤ 23) (minute_le : minute ≤ 59) :
    dayOf (instantOf day hour minute) = day := by
  unfold dayOf instantOf dayMs hourMs minuteMs
  omega

theorem hourOf_instantOf (hour_le : hour ≤ 23) (minute_le : minute ≤ 59) :
    hourOf (instantOf day hour minute) = hour := by
  unfold hourOf instantOf dayMs hourMs minuteMs
  omega

theorem minuteOf_instantOf (minute_le : minute ≤ 59) :
    minuteOf (instantOf day hour minute) = minute := by
  unfold minuteOf instantOf dayMs hourMs minuteMs
  omega

theorem instantOf_whole : instantOf day hour minute % minuteMs = 0 := by
  unfold instantOf dayMs hourMs minuteMs
  omega

end InstantOf

theorem instantOf_parts {instant : Int} (whole : instant % minuteMs = 0) :
    instantOf (dayOf instant) (hourOf instant) (minuteOf instant) = instant := by
  unfold instantOf dayOf hourOf minuteOf dayMs hourMs minuteMs at *
  omega

/-! ## Where the walk stops -/

theorem exists_firstMatch {test : Int → Bool} {more : Nat} {candidate : Int} {minutes : Nat}
    (within : minutes < more) (passes : test (candidate + minutes * minuteMs) = true) :
    ∃ next, firstMatch test more candidate = some next := by
  induction more generalizing candidate minutes with
  | zero => exact absurd within (Nat.not_lt_zero minutes)
  | succ more ih =>
    unfold firstMatch
    split
    · exact ⟨candidate, rfl⟩
    · rename_i fails
      cases minutes with
      | zero => exact absurd (by simpa using passes) fails
      | succ minutes =>
        refine @ih (candidate + minuteMs) minutes (Nat.lt_of_succ_lt_succ within) ?_
        have shift : candidate + minuteMs + minutes * minuteMs =
            candidate + (minutes + 1 : Nat) * minuteMs := by
          unfold minuteMs
          omega
        rwa [shift]

/-- The minutes the walk looks at. -/
structure InLookahead (after instant : Int) : Prop where
  low : startMs after ≤ instant
  high : instant ≤ startMs after + maxLookaheadDays * dayMs
  whole : instant % minuteMs = 0

section Walk

variable {zones : Zones} (utc : zones "UTC" = some utcParts)
  {expression : String} {schedule : ParsedCronExpression}
  (accepted : parseCronExpression expression = .ok schedule)

include utc accepted

theorem nextCronFireAfter_eq (after : Int) :
    nextCronFireAfter zones expression "UTC" after =
      match firstMatch (fun instant => CronMatches schedule (utcParts instant))
        (maxLookaheadDays * 24 * 60 + 1) (startMs after) with
      | some next => .ok next
      | none => .error ⟨"no_fire_within_lookahead", none⟩ := by
  unfold nextCronFireAfter
  rw [accepted]
  dsimp only [bind, Except.bind]
  rewrite [utc]
  rfl

/-- A next fire is in the look-ahead and the least minute that matches. -/
theorem next_spec {after next : Int} (found : nextCronFireAfter zones expression "UTC" after = .ok next) :
    InLookahead after next ∧
      LeastAfter (fun instant => instant % minuteMs = 0 ∧ CronMatches schedule (utcParts instant) = true)
        after next := by
  have walk := nextCronFireAfter_eq utc accepted after
  obtain ⟨schedule', localParts, parsed, zone, fire⟩ := nextCronFireAfter_eq_ok found
  rw [accepted] at parsed
  rw [utc] at zone
  cases parsed
  cases zone
  refine ⟨?_, fire.later, ⟨fire.whole, fire.fires⟩, fun instant later sooner holds => ?_⟩
  · rw [found] at walk
    split at walk
    · rename_i next' walked
      cases walk
      obtain ⟨minutes, less, reached, -, -⟩ := firstMatch_eq_some walked
      unfold maxLookaheadDays at less
      constructor
      · unfold minuteMs at reached
        omega
      · unfold maxLookaheadDays dayMs
        unfold minuteMs at reached
        omega
      · exact fire.whole
    · cases walk
  · rw [fire.first instant later sooner holds.1] at holds
    exact Bool.false_ne_true holds.2

/-- There is a next fire when a minute of the look-ahead matches. -/
theorem exists_next_iff (after : Int) :
    (∃ next, nextCronFireAfter zones expression "UTC" after = .ok next) ↔
      ∃ instant, InLookahead after instant ∧ CronMatches schedule (utcParts instant) = true := by
  constructor
  · rintro ⟨next, found⟩
    obtain ⟨within, least⟩ := next_spec utc accepted found
    exact ⟨next, within, least.holds.2⟩
  · rintro ⟨instant, within, passes⟩
    have count : startMs after + ((instant - startMs after) / minuteMs).toNat * minuteMs = instant := by
      obtain ⟨low, -, whole⟩ := within
      unfold startMs minuteMs at *
      omega
    have less : ((instant - startMs after) / minuteMs).toNat < maxLookaheadDays * 24 * 60 + 1 := by
      obtain ⟨low, high, -⟩ := within
      unfold maxLookaheadDays dayMs at *
      unfold minuteMs
      omega
    have passes' : CronMatches schedule (utcParts
        (startMs after + ((instant - startMs after) / minuteMs).toNat * minuteMs)) = true := by
      rwa [count]
    obtain ⟨next, walked⟩ :=
      @exists_firstMatch (fun instant => CronMatches schedule (utcParts instant)) _ _ _ less passes'
    exact ⟨next, by rw [nextCronFireAfter_eq utc accepted, walked]⟩

/-- Without a match in the look-ahead the walk ends with its own error. -/
theorem next_eq_error {after : Int}
    (absent : ¬ ∃ instant, InLookahead after instant ∧ CronMatches schedule (utcParts instant) = true) :
    nextCronFireAfter zones expression "UTC" after = .error ⟨"no_fire_within_lookahead", none⟩ := by
  have walk := nextCronFireAfter_eq utc accepted after
  split at walk
  · rename_i next walked
    exact absurd ⟨next, walk⟩ fun found => absent ((exists_next_iff utc accepted after).mp found)
  · exact walk

end Walk

/-! ## The values of the fields -/

theorem mem_allValues_hour {value : Nat} : value ∈ allValues hourSpec ↔ value ≤ 23 := by
  simp [allValues, hourSpec, normalizeValue]

theorem mem_allValues_minute {value : Nat} : value ∈ allValues minuteSpec ↔ value ≤ 59 := by
  simp [allValues, minuteSpec, normalizeValue]

theorem mem_allValues_dayOfMonth {value : Nat} :
    value ∈ allValues dayOfMonthSpec ↔ 1 ≤ value ∧ value ≤ 31 := by
  simp [allValues, dayOfMonthSpec, normalizeValue]

theorem mem_allValues_month {value : Nat} : value ∈ allValues monthSpec ↔ 1 ≤ value ∧ value ≤ 12 := by
  simp [allValues, monthSpec, normalizeValue]

theorem mem_allValues_dayOfWeek {value : Nat} : value ∈ allValues dayOfWeekSpec ↔ value < 7 := by
  have all : allValues dayOfWeekSpec = Finset.range 7 := by decide +kernel
  rw [all, Finset.mem_range]

/-- A date of the schedule that comes every year. -/
def HasCommonDate (schedule : ParsedCronExpression) : Prop :=
  ∃ month ∈ schedule.month.values, ∃ day ∈ schedule.dayOfMonth.values, day ≤ monthLength false month

/-- Without a date of every year a match is a time on a leap day. -/
theorem leap_day_of_match {schedule : ParsedCronExpression} (rare : ¬ HasCommonDate schedule) {instant : Int}
    (passes : CronMatches schedule (utcParts instant) = true) :
    ∃ year, isLeap year = true ∧ dayOf instant = dayNumber ⟨year, 2, 29⟩ := by
  obtain ⟨-, -, days, months, -⟩ := cronMatches_utcParts_iff.mp passes
  have valid := dateOf_valid (dayOf instant)
  obtain ⟨leap, february, last⟩ := leap_day valid.day_le fun common => rare ⟨_, months, _, days, common⟩
  refine ⟨(dateOf (dayOf instant)).year, leap, ?_⟩
  rw [← february, ← last, dayNumber_dateOf]

/-- After the last leap day before a hundred the next match is eight years later. -/
theorem match_after_gap {schedule : ParsedCronExpression} (rare : ¬ HasCommonDate schedule) {year instant : Int}
    (last : year % 400 = 96) (passes : CronMatches schedule (utcParts instant) = true)
    (later : (dayNumber ⟨year, 2, 29⟩ + 1) * dayMs ≤ instant) :
    (dayNumber ⟨year, 2, 29⟩ + 2921) * dayMs ≤ instant := by
  obtain ⟨next, leap, day⟩ := leap_day_of_match rare passes
  have leapYear : isLeap year = true := isLeap_eq_true_iff.mpr (by omega)
  have after : year < next := by
    by_contra sooner
    have mono := yearStart_mono (Int.le_of_not_gt sooner)
    rw [dayNumber_leap_day leap] at day
    rw [dayNumber_leap_day leapYear] at later
    unfold dayOf dayMs at *
    omega
  have gap := leap_day_gap last leap after
  rw [← day] at gap
  unfold dayOf dayMs at *
  omega

theorem maxDay_eq (month : Nat) : maxDay month = monthLength true month := by
  simp [maxDay, monthLength]

namespace ScheduleOf

variable {expression : String} {schedule : ParsedCronExpression}
  {minute hour dayOfMonth month dayOfWeek : List Char}
  (reads : ScheduleOf expression schedule minute hour dayOfMonth month dayOfWeek)

include reads

theorem exists_time : ∃ hour ∈ schedule.hour.values, ∃ minute ∈ schedule.minute.values,
    hour ≤ 23 ∧ minute ≤ 59 := by
  obtain ⟨hour, hours⟩ := List.exists_mem_of_ne_nil _ reads.hour.nonempty
  obtain ⟨minute, minutes⟩ := List.exists_mem_of_ne_nil _ reads.minute.nonempty
  exact ⟨hour, hours, minute, minutes, mem_allValues_hour.mp (reads.hour.within hour hours),
    mem_allValues_minute.mp (reads.minute.within minute minutes)⟩

/-- An accepted schedule without such a date names 29 February on every weekday. -/
theorem leap_day_only (rare : ¬ HasCommonDate schedule) :
    2 ∈ schedule.month.values ∧ 29 ∈ schedule.dayOfMonth.values ∧
      ∀ weekday < 7, weekday ∈ schedule.dayOfWeek.values := by
  obtain ⟨someMonth, months⟩ := List.exists_mem_of_ne_nil _ reads.month.nonempty
  obtain ⟨someDay, days⟩ := List.exists_mem_of_ne_nil _ reads.dayOfMonth.nonempty
  have specific : schedule.dayOfMonth.wildcard ≠ true := by
    intro wild
    have first : 1 ∈ schedule.dayOfMonth.values :=
      reads.dayOfMonth.all.mp wild 1 (mem_allValues_dayOfMonth.mpr (by decide))
    have length := (monthLength_common_le false someMonth).1
    exact rare ⟨someMonth, months, 1, first, by omega⟩
  have someMonths : schedule.month.wildcard ≠ true := by
    intro wild
    have january : 1 ∈ schedule.month.values :=
      reads.month.all.mp wild 1 (mem_allValues_month.mpr (by decide))
    have bound := mem_allValues_dayOfMonth.mp (reads.dayOfMonth.within someDay days)
    exact rare ⟨1, january, someDay, days, bound.2⟩
  have everyWeekday := reads.days.resolve_left specific
  have possible := (reads.possible.resolve_left specific).resolve_left someMonths
  simp only [hasPossibleDayOfMonth, List.any_eq_true, decide_eq_true_eq, maxDay_eq] at possible
  obtain ⟨february, months', last, days', within⟩ := possible
  obtain ⟨-, rfl, rfl⟩ := leap_day within fun common => rare ⟨february, months', last, days', common⟩
  exact ⟨months', days', fun weekday less =>
    reads.dayOfWeek.all.mp everyWeekday weekday (mem_allValues_dayOfWeek.mpr less)⟩

/-- A time of the schedule on one of its dates matches. -/
theorem matches_date {date : Date} (valid : date.Valid) {hour minute : Nat}
    (hours : hour ∈ schedule.hour.values) (minutes : minute ∈ schedule.minute.values)
    (days : date.day ∈ schedule.dayOfMonth.values) (months : date.month ∈ schedule.month.values)
    (weekdays : weekday (dayNumber ⟨shownYear date.year, date.month, date.day⟩) ∈
      schedule.dayOfWeek.values) :
    CronMatches schedule (utcParts (instantOf (dayNumber date) hour minute)) = true := by
  have hour_le := mem_allValues_hour.mp (reads.hour.within hour hours)
  have minute_le := mem_allValues_minute.mp (reads.minute.within minute minutes)
  rw [cronMatches_utcParts_iff, minuteOf_instantOf minute_le, hourOf_instantOf hour_le minute_le,
    dayOf_instantOf hour_le minute_le]
  unfold shownWeekday
  rw [dateOf_dayNumber valid]
  exact ⟨minutes, hours, days, months, weekdays⟩

/-- A date of the schedule in the year after the start is in the look-ahead. -/
theorem exists_match_next_year {after : Int} {date : Date} (valid : date.Valid)
    (next : date.year = yearOf (dayOf (startMs after)) + 1)
    (days : date.day ∈ schedule.dayOfMonth.values) (months : date.month ∈ schedule.month.values)
    (weekdays : weekday (dayNumber ⟨shownYear date.year, date.month, date.day⟩) ∈
      schedule.dayOfWeek.values) :
    ∃ instant, InLookahead after instant ∧ CronMatches schedule (utcParts instant) = true := by
  obtain ⟨hour, hours, minute, minutes, hour_le, minute_le⟩ := reads.exists_time
  obtain ⟨later, within⟩ := dayNumber_next_year valid next
  refine ⟨instantOf (dayNumber date) hour minute, ⟨?_, ?_, instantOf_whole⟩,
    reads.matches_date valid hours minutes days months weekdays⟩
  · unfold dayOf dayMs at later
    unfold instantOf dayMs hourMs minuteMs
    omega
  · unfold dayOf dayMs at within
    unfold instantOf maxLookaheadDays dayMs hourMs minuteMs
    omega

/-- A schedule with a date of every year has a next fire after every start. -/
theorem exists_match_of_common (common : HasCommonDate schedule) (after : Int) :
    ∃ instant, InLookahead after instant ∧ CronMatches schedule (utcParts instant) = true := by
  let year := yearOf (dayOf (startMs after)) + 1
  rcases reads.days with everyDay | everyWeekday
  · -- all days of the month: one of the first seven has the weekday
    obtain ⟨month, months⟩ := List.exists_mem_of_ne_nil _ reads.month.nonempty
    obtain ⟨someWeekday, weekdays⟩ := List.exists_mem_of_ne_nil _ reads.dayOfWeek.nonempty
    have less := mem_allValues_dayOfWeek.mp (reads.dayOfWeek.within someWeekday weekdays)
    obtain ⟨day, low, high, same⟩ := exists_weekday (shownYear year) month less
    obtain ⟨month_pos, month_le⟩ := mem_allValues_month.mp (reads.month.within month months)
    have length := monthLength_common_le (isLeap year) month
    refine @exists_match_next_year _ _ _ _ _ _ _ reads after ⟨year, month, day⟩
      ⟨month_pos, month_le, low, by dsimp only; omega⟩ rfl ?_ months ?_
    · exact reads.dayOfMonth.all.mp everyDay day (mem_allValues_dayOfMonth.mpr ⟨low, by omega⟩)
    · exact same ▸ weekdays
  · obtain ⟨month, months, day, days, within⟩ := common
    obtain ⟨month_pos, month_le⟩ := mem_allValues_month.mp (reads.month.within month months)
    obtain ⟨day_pos, -⟩ := mem_allValues_dayOfMonth.mp (reads.dayOfMonth.within day days)
    have length := (monthLength_common_le (isLeap year) month).2
    refine @exists_match_next_year _ _ _ _ _ _ _ reads after ⟨year, month, day⟩
      ⟨month_pos, month_le, day_pos, Nat.le_trans within length⟩ rfl days months ?_
    exact reads.dayOfWeek.all.mp everyWeekday _ (mem_allValues_dayOfWeek.mpr (weekday_lt _))

theorem matches_leap_day (rare : ¬ HasCommonDate schedule) {year : Int} (leap : isLeap year = true)
    {hour minute : Nat} (hours : hour ∈ schedule.hour.values) (minutes : minute ∈ schedule.minute.values) :
    CronMatches schedule (utcParts (instantOf (dayNumber ⟨year, 2, 29⟩) hour minute)) = true := by
  obtain ⟨february, last, weekdays⟩ := reads.leap_day_only rare
  exact reads.matches_date (leap_day_valid leap) hours minutes last february
    (weekdays _ (weekday_lt _))

end ScheduleOf

/-! ## Schedules that end -/

/-- There is a next fire exactly when the schedule has a date of every year, or
one of its times on a leap day is in the look-ahead. -/
theorem next_fire_exists_iff {zones : Zones} (utc : zones "UTC" = some utcParts) {expression : String}
    {schedule : ParsedCronExpression} (accepted : parseCronExpression expression = .ok schedule)
    (after : Int) :
    (∃ next, nextCronFireAfter zones expression "UTC" after = .ok next) ↔
      HasCommonDate schedule ∨
        ∃ year, isLeap year = true ∧ ∃ hour ∈ schedule.hour.values, ∃ minute ∈ schedule.minute.values,
          startMs after ≤ instantOf (dayNumber ⟨year, 2, 29⟩) hour minute ∧
            instantOf (dayNumber ⟨year, 2, 29⟩) hour minute ≤ startMs after + maxLookaheadDays * dayMs := by
  obtain ⟨_, _, _, _, _, reads⟩ := parseCronExpression_eq_ok accepted
  rw [exists_next_iff utc accepted]
  by_cases common : HasCommonDate schedule
  · exact iff_of_true (reads.exists_match_of_common common after) (.inl common)
  · constructor
    · rintro ⟨instant, within, passes⟩
      obtain ⟨year, leap, day⟩ := leap_day_of_match common passes
      obtain ⟨minutes, hours, -⟩ := cronMatches_utcParts_iff.mp passes
      refine .inr ⟨year, leap, hourOf instant, hours, minuteOf instant, minutes, ?_⟩
      rw [← day, instantOf_parts within.whole]
      exact ⟨within.low, within.high⟩
    · rintro (comes | ⟨year, leap, hour, hours, minute, minutes, low, high⟩)
      · exact absurd comes common
      · exact ⟨_, ⟨low, high, instantOf_whole⟩, reads.matches_leap_day common leap hours minutes⟩

/-- The zones of a clock that knows UTC alone. -/
def utcZones : Zones := fun timezone => if timezone = "UTC" then some utcParts else none

/-- The schedule of `0 0 29 2 *`. -/
def leapDaySchedule : ParsedCronExpression where
  minute := ⟨[0], false⟩
  hour := ⟨[0], false⟩
  dayOfMonth := ⟨[29], false⟩
  month := ⟨[2], false⟩
  dayOfWeek := ⟨[6, 5, 4, 3, 2, 1, 0], true⟩

theorem leapDaySchedule_accepted : parseCronExpression "0 0 29 2 *" = .ok leapDaySchedule := by
  decide +kernel

theorem leapDaySchedule_rare : ¬ HasCommonDate leapDaySchedule := by
  unfold HasCommonDate
  decide

/-- 1 March 2096. -/
def march2096 : Int := 46081 * dayMs

theorem leapDaySchedule_no_match :
    ¬ ∃ instant, InLookahead march2096 instant ∧ CronMatches leapDaySchedule (utcParts instant) = true := by
  rintro ⟨instant, ⟨low, high, -⟩, passes⟩
  have day : dayNumber ⟨2096, 2, 29⟩ = 46080 := by decide +kernel
  have far := @match_after_gap _ leapDaySchedule_rare 2096 instant (by decide) passes
  rw [day] at far
  unfold startMs maxLookaheadDays march2096 minuteMs dayMs at *
  omega

/-- On 1 March 2096 an accepted schedule has no next fire: the next leap day is
in 2104. -/
theorem leap_day_schedule_dies :
    parseCronExpression "0 0 29 2 *" = .ok leapDaySchedule ∧
      nextCronFireAfter utcZones "0 0 29 2 *" "UTC" march2096 =
        .error ⟨"no_fire_within_lookahead", none⟩ :=
  ⟨leapDaySchedule_accepted, next_eq_error rfl leapDaySchedule_accepted leapDaySchedule_no_match⟩

theorem next_fire_exists_iff_leap_day :
    (∃ next, nextCronFireAfter utcZones "0 0 29 2 *" "UTC" 0 = .ok next) ∧
      ¬ HasCommonDate leapDaySchedule := by
  refine ⟨(next_fire_exists_iff rfl leapDaySchedule_accepted 0).mpr (.inr ?_), leapDaySchedule_rare⟩
  exact ⟨1972, by decide, 0, by decide, 0, by decide, by decide +kernel⟩

/-! ## The enumeration of the fires -/

/-- Each next fire is the least minute of the expression after the one before,
and together they are all its minutes after the start. -/
structure EnumeratesFires (zones : Zones) (expression : String) (after : Int) (fires : Nat → Int) :
    Prop where
  first : nextCronFireAfter zones expression "UTC" after = .ok (fires 0)
  next : ∀ index, nextCronFireAfter zones expression "UTC" (fires index) = .ok (fires (index + 1))
  least : Successive (fun instant => instant % minuteMs = 0 ∧ Fires expression instant) after fires
  increasing : StrictMono fires
  all : ∀ instant, (∃ index, fires index = instant) ↔
    after < instant ∧ instant % minuteMs = 0 ∧ Fires expression instant

/-- At the times of the schedule after the start, the weekday shown is one of
the schedule when the true one is. -/
def SameWeekdays (schedule : ParsedCronExpression) (after : Int) : Prop :=
  ∀ instant, after < instant → instant % minuteMs = 0 → minuteOf instant ∈ schedule.minute.values →
    hourOf instant ∈ schedule.hour.values → (dateOf (dayOf instant)).month ∈ schedule.month.values →
      (shownWeekday (dayOf instant) ∈ schedule.dayOfWeek.values ↔
        weekday (dayOf instant) ∈ schedule.dayOfWeek.values)

/-- Weekdays are right for every start from the year 100 on. -/
theorem sameWeekdays_of_late (schedule : ParsedCronExpression) {after : Int}
    (late : 100 ≤ yearOf (dayOf after)) : SameWeekdays schedule after := by
  intro instant later _ _ _ _
  have year : yearOf (dayOf after) ≤ yearOf (dayOf instant) := by
    by_contra sooner
    have mono := yearStart_mono (Int.add_one_le_of_lt (Int.lt_of_not_ge sooner))
    have one := yearOf_spec (dayOf after)
    have two := yearOf_spec (dayOf instant)
    unfold dayOf dayMs at *
    omega
  have inYear : (dateOf (dayOf instant)).year = yearOf (dayOf instant) := rfl
  rw [shownWeekday_eq (by omega)]

namespace ScheduleOf

variable {expression : String} {schedule : ParsedCronExpression}
  {minute hour dayOfMonth month dayOfWeek : List Char}
  (reads : ScheduleOf expression schedule minute hour dayOfMonth month dayOfWeek)

include reads

/-- Where the weekdays agree, the clock matches at the minutes of the expression. -/
theorem matches_iff_fires {after : Int} (same : SameWeekdays schedule after) {instant : Int}
    (later : after < instant) :
    (instant % minuteMs = 0 ∧ CronMatches schedule (utcParts instant) = true) ↔
      instant % minuteMs = 0 ∧ Fires expression instant := by
  rw [cronMatches_utcParts_iff, reads.fires_iff]
  constructor
  · rintro ⟨whole, minutes, hours, days, months, weekdays⟩
    exact ⟨whole, minutes, hours, days, months,
      (same instant later whole minutes hours months).mp weekdays⟩
  · rintro ⟨whole, minutes, hours, days, months, weekdays⟩
    exact ⟨whole, minutes, hours, days, months,
      (same instant later whole minutes hours months).mpr weekdays⟩

/-- Where the clock matches at the minutes of the expression, the weekdays agree. -/
theorem sameWeekdays_of_agree {after : Int}
    (agree : ∀ instant, after < instant →
      ((instant % minuteMs = 0 ∧ CronMatches schedule (utcParts instant) = true) ↔
        instant % minuteMs = 0 ∧ Fires expression instant)) : SameWeekdays schedule after := by
  intro instant later whole minutes hours months
  rcases reads.days with everyDay | everyWeekday
  · have valid := dateOf_valid (dayOf instant)
    have length : monthLength (isLeap (dateOf (dayOf instant)).year) (dateOf (dayOf instant)).month ≤ 31 := by
      unfold monthLength
      split
      · split <;> omega
      · split <;> omega
    have days : (dateOf (dayOf instant)).day ∈ schedule.dayOfMonth.values :=
      reads.dayOfMonth.all.mp everyDay _
        (mem_allValues_dayOfMonth.mpr ⟨valid.day_pos, Nat.le_trans valid.day_le length⟩)
    have both := agree instant later
    rw [cronMatches_utcParts_iff, reads.fires_iff] at both
    constructor
    · intro weekdays
      exact (both.mp ⟨whole, minutes, hours, days, months, weekdays⟩).2.2.2.2.2
    · intro weekdays
      exact (both.mpr ⟨whole, minutes, hours, days, months, weekdays⟩).2.2.2.2.2
  · have every : ∀ value < 7, value ∈ schedule.dayOfWeek.values := fun value less =>
      reads.dayOfWeek.all.mp everyWeekday value (mem_allValues_dayOfWeek.mpr less)
    exact iff_of_true (every _ (weekday_lt _)) (every _ (weekday_lt _))

/-- A schedule of leap days has no infinite sequence of next fires. -/
theorem not_successive_of_rare (rare : ¬ HasCommonDate schedule) {after : Int} {fires : Nat → Int}
    (run : Successive
      (fun instant => instant % minuteMs = 0 ∧ CronMatches schedule (utcParts instant) = true) after fires)
    (within : ∀ index, InLookahead (fires index) (fires (index + 1))) : False := by
  obtain ⟨hour, hours, minute, minutes, hour_le, minute_le⟩ := reads.exists_time
  -- a year before a hundred without a leap day, after the start
  let year := 400 * (yearOf (dayOf after) / 400 + 1) + 96
  have last : year % 400 = 96 := by
    dsimp only [year]
    omega
  have leap : isLeap year = true := isLeap_eq_true_iff.mpr (by omega)
  have late : dayOf after < dayNumber ⟨year, 2, 29⟩ := by
    have mono : yearStart (yearOf (dayOf after) + 1) ≤ yearStart year :=
      yearStart_mono (by dsimp only [year]; omega)
    have spec := (yearOf_spec (dayOf after)).2
    have bounds := (dayNumber_bounds (leap_day_valid leap)).1
    dsimp only at bounds
    omega
  have inDay : dayOf (instantOf (dayNumber ⟨year, 2, 29⟩) hour minute) = dayNumber ⟨year, 2, 29⟩ :=
    dayOf_instantOf hour_le minute_le
  have later : after < instantOf (dayNumber ⟨year, 2, 29⟩) hour minute := by
    unfold dayOf dayMs at *
    omega
  obtain ⟨met, same⟩ := (run.exists_iff _).mpr
    ⟨later, instantOf_whole, reads.matches_leap_day rare leap hours minutes⟩
  -- the fire on that day and the first one after the day are too far apart
  obtain ⟨index, reached, before⟩ := run.exists_first_from ((dayNumber ⟨year, 2, 29⟩ + 1) * dayMs)
  have passed : met < index := by
    by_contra sooner
    have mono := run.strictMono.monotone (Nat.le_of_not_lt sooner)
    unfold dayOf dayMs at *
    omega
  obtain ⟨previous, rfl⟩ := Nat.exists_eq_add_of_le' (Nat.zero_lt_of_lt passed)
  have far := match_after_gap rare last (run.holds (previous + 1)).2 reached
  have near := (within previous).high
  have early := before previous (Nat.lt_succ_self previous)
  unfold startMs maxLookaheadDays minuteMs dayMs at *
  omega

end ScheduleOf

/-- The next fires are the minutes of the expression exactly when the schedule
has a date of every year and the weekdays after the start are shown right. -/
theorem next_fires_enumerate_iff {zones : Zones} (utc : zones "UTC" = some utcParts) {expression : String}
    {schedule : ParsedCronExpression} (accepted : parseCronExpression expression = .ok schedule)
    (after : Int) :
    (∃ fires, EnumeratesFires zones expression after fires) ↔
      HasCommonDate schedule ∧ SameWeekdays schedule after := by
  obtain ⟨_, _, _, _, _, reads⟩ := parseCronExpression_eq_ok accepted
  constructor
  · rintro ⟨fires, first, next, least, -, -⟩
    have run : Successive
        (fun instant => instant % minuteMs = 0 ∧ CronMatches schedule (utcParts instant) = true) after fires :=
      ⟨(next_spec utc accepted first).2, fun index => (next_spec utc accepted (next index)).2⟩
    constructor
    · by_contra rare
      exact reads.not_successive_of_rare rare run fun index => (next_spec utc accepted (next index)).1
    · exact reads.sameWeekdays_of_agree fun instant later => run.agree least later
  · rintro ⟨common, same⟩
    have serial : ∀ start, ∃ next, nextCronFireAfter zones expression "UTC" start = .ok next :=
      fun start => (exists_next_iff utc accepted start).mpr (reads.exists_match_of_common common start)
    obtain ⟨fires, first, next⟩ := exists_sequence serial after
    have run : Successive
        (fun instant => instant % minuteMs = 0 ∧ CronMatches schedule (utcParts instant) = true) after fires :=
      ⟨(next_spec utc accepted first).2, fun index => (next_spec utc accepted (next index)).2⟩
    have least := run.congr fun instant later => reads.matches_iff_fires same later
    exact ⟨fires, first, next, least, least.strictMono, least.exists_iff⟩

/-- 29 February 2104 is a day of the expression that the walk from 1 March 2096
does not reach. -/
theorem leap_day_fire_missed :
    nextCronFireAfter utcZones "0 0 29 2 *" "UTC" march2096 =
        .error ⟨"no_fire_within_lookahead", none⟩ ∧
      march2096 < 49001 * dayMs ∧ 49001 * dayMs % minuteMs = 0 ∧
        dateOf (dayOf (49001 * dayMs)) = ⟨2104, 2, 29⟩ ∧ Fires "0 0 29 2 *" (49001 * dayMs) := by
  obtain ⟨_, _, _, _, _, reads⟩ := parseCronExpression_eq_ok leapDaySchedule_accepted
  refine ⟨next_eq_error rfl leapDaySchedule_accepted leapDaySchedule_no_match, by decide, by decide,
    by decide +kernel, (reads.fires_iff _).mpr ?_⟩
  decide +kernel

/-- The schedule of `0 0 1 1 *`. -/
def newYearSchedule : ParsedCronExpression :=
  { leapDaySchedule with dayOfMonth := ⟨[1], false⟩, month := ⟨[1], false⟩ }

theorem next_fires_enumerate_iff_new_year :
    ∃ fires, EnumeratesFires utcZones "0 0 1 1 *" 0 fires := by
  have accepted : parseCronExpression "0 0 1 1 *" = .ok newYearSchedule := by decide +kernel
  refine (next_fires_enumerate_iff rfl accepted 0).mpr ⟨?_, ?_⟩
  · exact ⟨1, by decide, 1, by decide, by decide⟩
  · exact sameWeekdays_of_late _ (by decide +kernel)

end RpaEnterprise.Runtime.CronSchedule
