/-
**Alarms on a date.**

In the modes that match a date, `setAlarm` counts the days with `rdn` and takes a whole day for each. The day
number of a date that has passed is subtracted as an unsigned one.

* `dayAlarm_iff`, `dateAlarm_iff`, `laterDate_iff`, `notLater_iff` — the modes, each with the targets it foresees.
* `dateForeseen_iff` — **a date alarm is right exactly when** the time of the target is the current one, and the
  date is `DateForeseen`: it lies in what the mode takes for the same month or year, or is the current one, and
  no 29 February in between is counted by one calendar alone.
-/

import PrimoCore.Rtc.DateMatches
import PrimoCore.Rtc.DayDifference

namespace PrimoCore.Rtc

open PrimoCore.Lib

namespace AlarmClock

/-! ### The targets that are foreseen -/

/-- The day is the current one or lies behind it, in the month; the next month has it, and is where `rdn`
expects it. -/
def DayForeseen (day : UInt32) (now : Date) : Prop :=
  now.day < day ∧ day.toNat ≤ monthDays now.year.toNat now.month.toNat ∨
    day = now.day ∧
      day.toNat ≤ monthDays (following now.year.toNat now.month.toNat).1
        (following now.year.toNat now.month.toNat).2 ∧
      ¬ (now.month = 2 ∧ FebruaryDiffers now.year)

/-- The date lies behind the current one in the year, and in a leap year not beyond February from before it;
or it is the current one, and the next year has it, and is where `rdn` expects it; or it is the leap day of the
next year, on 1 March. -/
def DateInYearForeseen (date now : Date) : Prop :=
  (now.month < date.month ∨ now.month = date.month ∧ now.day < date.day) ∧
      (if now.year % 4 = 0 then date.month ≤ 2 ∨ 3 ≤ now.month else ¬ (date.month = 2 ∧ date.day = 29)) ∨
    (date.month = now.month ∧ date.day = now.day) ∧ ¬ (date.month = 2 ∧ date.day = 29) ∧
      ¬ FebruaryDiffers (if now.month < 3 then now.year else now.year + 1) ∨
    (now.month = 3 ∧ now.day = 1) ∧ (date.month = 2 ∧ date.day = 29) ∧ (now.year + 1) % 4 = 0

/-- **The target is foreseen.** -/
def DateForeseen (rtc : AlarmClock) : Prop :=
  let date := rtc.clock.date
  let now := rtc.clock.dateInt
  match rtc.alarmMode with
  | .ddhhmmss => rtc.targetTime.ofDay = rtc.clock.timeInt.ofDay ∧ DayForeseen date.day now
  | .mmddhhmmss => rtc.targetTime.ofDay = rtc.clock.timeInt.ofDay ∧ DateInYearForeseen date now
  | .yymmddhhmmss =>
      if rtc.TargetLater then rtc.targetTime.ofDay = rtc.clock.timeInt.ofDay ∧
        date.leftOut = now.leftOut ∧ date.days ≤ now.days + 49710
      else date = now ∨ date.Confused now
  | _ => False

variable {rtc : AlarmClock}

/-! ### A day of the month -/

/-- **A day of the month**: the alarm is set to its next time exactly when it is foreseen. -/
theorem dayAlarm_iff (valid : rtc.clock.Valid) (target : rtc.TargetValid) (mode : rtc.alarmMode = .ddhhmmss) :
    (∃ delay, rtc.armed = some delay ∧ IsLeast rtc.laterMatches delay.toNat) ↔
      rtc.targetTime.ofDay = rtc.clock.timeInt.ofDay ∧ DayForeseen rtc.clock.date.day rtc.clock.dateInt := by
  obtain ⟨now, is_now⟩ : ∃ now, now = rtc.clock.moment valid := ⟨_, rfl⟩
  have dates : rtc.laterDates = daysToDay now rtc.clock.date.day.toNat := by
    unfold laterDates
    rw [mode, is_now]
    rfl
  have year : now.year = rtc.clock.dateInt.year.toNat := by rw [is_now]; rfl
  have month : now.month = rtc.clock.dateInt.month.toNat := by rw [is_now]; rfl
  have day : now.day = rtc.clock.dateInt.day.toNat := by rw [is_now]; rfl
  have armed : rtc.armed = some (rtc.select.days * 24 * 60 * 60) := by
    rw [armed_date target, if_neg fun both => by rw [mode] at both; cases both.1]
  have inDay := target.2
  rw [mode, UInt32.le_iff_toNat_le, UInt32.le_iff_toNat_le] at inDay
  change 1 ≤ rtc.clock.date.day.toNat ∧ rtc.clock.date.day.toNat ≤ 31 at inDay
  have atMost := now.dayLast.trans (monthDays_le ..)
  have sameMonth := @rdnOf_sameMonth rtc.clock.dateInt.year _ (month ▸ now.month_bounds.1)
    (month ▸ now.month_bounds.2) rtc.clock.date.day rtc.clock.dateInt.day (by omega) (by omega)
  have selected : rtc.select.days =
      if rtc.clock.date.day = rtc.clock.dateInt.day then
        rdnOf rtc.clock.dateInt.year (rtc.clock.dateInt.month + 1) rtc.clock.date.day -
          rdnOf rtc.clock.dateInt.year rtc.clock.dateInt.month rtc.clock.dateInt.day
      else rdnOf rtc.clock.dateInt.year rtc.clock.dateInt.month rtc.clock.date.day -
        rdnOf rtc.clock.dateInt.year rtc.clock.dateInt.month rtc.clock.dateInt.day := by
    have zero : rdnOf rtc.clock.dateInt.year rtc.clock.dateInt.month rtc.clock.date.day -
        rdnOf rtc.clock.dateInt.year rtc.clock.dateInt.month rtc.clock.dateInt.day = 0 ↔
        rtc.clock.date.day = rtc.clock.dateInt.day := by
      rw [← UInt32.toNat_inj, ← UInt32.toNat_inj, sameMonth, UInt32.toNat_zero]
      omega
    simp only [select, mode, zero]
  rw [armed]
  simp only [Option.some.injEq, exists_eq_left', toNat_days]
  unfold DayForeseen
  rw [UInt32.lt_iff_toNat_lt, ← year, ← month, ← day]
  rcases Nat.lt_trichotomy rtc.clock.date.day.toNat rtc.clock.dateInt.day.toNat with before | same | ahead
  · -- The day has passed, and its day number is subtracted as an unsigned one.
    rw [if_neg fun same => Nat.ne_of_lt before (congrArg UInt32.toNat same)] at selected
    have wrapped : rtc.select.days.toNat = 2 ^ 32 - (rtc.clock.dateInt.day.toNat - rtc.clock.date.day.toNat) := by
      rw [selected, sameMonth]
      omega
    obtain ⟨days, soon, few⟩ := exists_day inDay.1 (day ▸ before)
    rw [← dates] at soon
    rw [wrapped, days_wrapped (by omega) (by omega)]
    refine iff_of_false (not_isLeast_of_late valid target soon (by omega)) ?_
    rintro ⟨-, ⟨ahead, -⟩ | ⟨same, -⟩⟩
    · omega
    · exact Nat.ne_of_lt before (congrArg UInt32.toNat same)
  · rw [if_pos (UInt32.toNat_inj.mp same), UInt32.toNat_inj.mp same] at selected
    have length := @rdnOf_nextMonth rtc.clock.dateInt.year _ (month ▸ now.month_bounds.1)
      (month ▸ now.month_bounds.2) rtc.clock.dateInt.day (by omega)
    rw [← selected, ← month] at length
    have step := leapDays_step (toInt rtc.clock.dateInt.year)
    have bounds : 28 ≤ rtc.select.days.toNat ∧ rtc.select.days.toNat ≤ 31 ∧
        rtc.select.days.toNat ≤ monthDays now.year now.month + 2 ∧
        monthDays now.year now.month ≤ rtc.select.days.toNat + 2 := by
      have low := @monthDays_ge 1 _ now.month_bounds.1 now.month_bounds.2
      have high := monthDays_le 1 now.month
      by_cases february : now.month = 2
      · have short : monthDays 1 2 = 28 := rfl
        have long : monthDays now.year 2 = if now.year % 4 = 0 then 29 else 28 := rfl
        rw [february, long]
        rw [february, short, if_pos rfl] at length
        split_ifs <;> omega
      · rw [monthDays_eq february]
        rw [if_neg february] at length
        omega
    rw [Nat.mod_eq_of_lt (by omega), isLeast_wholeDays_iff valid target (by omega), dates, same, ← day,
      sameDay_iff bounds.2.2.1 bounds.2.2.2]
    refine and_congr_right fun _ => ?_
    have lengthRight := @monthLength_eq_iff rtc.clock.dateInt.year now.month
    rw [← length, ← year, Int.natCast_inj] at lengthRight
    have february : rtc.clock.dateInt.month = 2 ↔ now.month = 2 := by
      rw [← UInt32.toNat_inj, month]
      rfl
    rw [lengthRight, february]
    constructor
    · rintro ⟨right, has⟩
      exact .inr ⟨UInt32.toNat_inj.mp same, has, right⟩
    · rintro (⟨ahead, -⟩ | ⟨-, has, right⟩)
      · omega
      · exact ⟨right, has⟩
  · rw [if_neg fun same => Nat.ne_of_gt ahead (congrArg UInt32.toNat same)] at selected
    have days : rtc.select.days.toNat = rtc.clock.date.day.toNat - now.day := by
      rw [selected, sameMonth, day]
      omega
    rw [days, Nat.mod_eq_of_lt (by omega), isLeast_wholeDays_iff valid target (by omega), dates,
      dayAhead_iff (by omega) inDay.2]
    refine and_congr_right fun _ => ⟨fun has => .inl ⟨by omega, has⟩, ?_⟩
    rintro (⟨-, has⟩ | ⟨same, -⟩)
    · exact has
    · exact absurd (congrArg UInt32.toNat same) (Nat.ne_of_gt ahead)

/-! ### A date of the year -/

/-- The comparisons of `DateInYearForeseen`, on numbers. -/
theorem dateInYearForeseen_iff (date now : Date) : DateInYearForeseen date now ↔
    (now.month.toNat < date.month.toNat ∨
        now.month.toNat = date.month.toNat ∧ now.day.toNat < date.day.toNat) ∧
      (if now.year.toNat % 4 = 0 then date.month.toNat < 3 ∨ 3 ≤ now.month.toNat
        else ¬ (date.month.toNat = 2 ∧ date.day.toNat = 29)) ∨
    (date.month.toNat = now.month.toNat ∧ date.day.toNat = now.day.toNat) ∧
      ¬ (date.month.toNat = 2 ∧ date.day.toNat = 29) ∧
      ¬ FebruaryDiffers (if now.month.toNat < 3 then now.year else now.year + 1) ∨
    (now.month.toNat = 3 ∧ now.day.toNat = 1) ∧ (date.month.toNat = 2 ∧ date.day.toNat = 29) ∧
      (now.year.toNat + 1) % 4 = 0 := by
  have next : (now.year + 1) % 4 = 0 ↔ (now.year.toNat + 1) % 4 = 0 := by
    rw [← UInt32.toNat_inj, UInt32.toNat_mod, UInt32.toNat_add, UInt32.toNat_one]
    change (now.year.toNat + 1) % 2 ^ 32 % 4 = 0 ↔ _
    omega
  have few : date.month.toNat ≤ 2 ↔ date.month.toNat < 3 := Nat.lt_succ_iff.symm
  unfold DateInYearForeseen
  simp only [next, UInt32.lt_iff_toNat_lt, UInt32.le_iff_toNat_le, ← UInt32.toNat_inj, UInt32.toNat_mod,
    UInt32.toNat_ofNat, few]

/-- A target of the mode that matches the month is a date of a leap year. -/
theorem TargetValid.inYear {rtc : AlarmClock} (target : rtc.TargetValid) (mode : rtc.alarmMode = .mmddhhmmss) :
    (1 ≤ rtc.clock.date.month.toNat ∧ rtc.clock.date.month.toNat ≤ 12) ∧ 1 ≤ rtc.clock.date.day.toNat ∧
      rtc.clock.date.day.toNat ≤ monthDays 0 rtc.clock.date.month.toNat := by
  have inDay := target.2
  rw [mode] at inDay
  exact ⟨inDay.month_bounds, UInt32.le_iff_toNat_le.mp inDay.2.2.1, inDay.dayLast⟩

/-- **What the case `MMDDHHMMSS` takes for the days**: the way between two places in a common year, as an
`unsigned int`; from a place to itself, the difference of the day numbers in two years. -/
theorem select_dateInYear (valid : rtc.clock.Valid) (target : rtc.TargetValid)
    (mode : rtc.alarmMode = .mmddhhmmss) :
    (rtc.clock.date.place ≠ rtc.clock.dateInt.place → rtc.select.days.toNat =
      (((rtc.clock.date.place : Int) - rtc.clock.dateInt.place) % 2 ^ 32).toNat) ∧
    (rtc.clock.date.place = rtc.clock.dateInt.place → rtc.RdnCallsDefined →
      toInt (rtc.clock.dateInt.year + 1) = toInt rtc.clock.dateInt.year + 1 ∧
      (rtc.select.days.toNat : Int) =
        (365 + leapDays (marchYear (toInt rtc.clock.dateInt.year + 1) rtc.clock.date.month.toNat) -
          leapDays (marchYear (toInt rtc.clock.dateInt.year) rtc.clock.dateInt.month.toNat)) % 2 ^ 32) := by
  obtain ⟨first, last⟩ : 1 ≤ rtc.clock.dateInt.month.toNat ∧ rtc.clock.dateInt.month.toNat ≤ 12 :=
    valid.2.month_bounds
  have short : rtc.clock.dateInt.day.toNat ≤ 31 := valid.2.dayLast.trans (monthDays_le ..)
  obtain ⟨⟨targetFirst, targetLast⟩, targetDay, inside⟩ := target.inYear mode
  have targetShort := inside.trans (monthDays_le ..)
  have sameYear := @rdnOf_sameYear _ _ targetFirst targetLast first last rtc.clock.date.day
    rtc.clock.dateInt.day (by omega) (by omega)
  have zero : rdnOf 0 rtc.clock.date.month rtc.clock.date.day -
      rdnOf 0 rtc.clock.dateInt.month rtc.clock.dateInt.day = 0 ↔
      rtc.clock.date.place = rtc.clock.dateInt.place := by
    have few : rtc.clock.date.place ≤ 366 ∧ rtc.clock.dateInt.place ≤ 366 :=
      ⟨(Nat.le_add_right ..).trans (dayInYear_le targetDay inside), valid.2.place_le⟩
    rw [← UInt32.toNat_inj, sameYear, UInt32.toNat_zero]
    unfold Date.place at few ⊢
    omega
  have selected : rtc.select.days =
      if rtc.clock.date.place = rtc.clock.dateInt.place then
        rdnOf (rtc.clock.dateInt.year + 1) rtc.clock.date.month rtc.clock.date.day -
          rdnOf rtc.clock.dateInt.year rtc.clock.dateInt.month rtc.clock.dateInt.day
      else rdnOf 0 rtc.clock.date.month rtc.clock.date.day -
        rdnOf 0 rtc.clock.dateInt.month rtc.clock.dateInt.day := by
    simp only [select, mode, zero]
  constructor
  · intro apart
    rw [selected, if_neg apart]
    exact sameYear
  · intro same defined
    unfold RdnCallsDefined at defined
    rw [mode] at defined
    obtain ⟨-, current⟩ := defined.2.2 ((UInt32.sub_left_inj _).mp ((zero.mpr same).trans (UInt32.sub_self _).symm))
    rw [selected, if_pos same]
    exact ⟨current.year_next,
      rdnOf_nextYear targetFirst targetLast first last (by omega) (by omega) same current.year_next⟩

/-- The dates that are matched are those of the calendar. -/
theorem laterDates_inYear (valid : rtc.clock.Valid) (mode : rtc.alarmMode = .mmddhhmmss) :
    rtc.laterDates =
      daysToDate (rtc.clock.moment valid) rtc.clock.date.month.toNat rtc.clock.date.day.toNat := by
  unfold laterDates
  rw [mode]
  rfl

/-- **A place behind the current one.** -/
theorem isLeast_placeAhead_iff (valid : rtc.clock.Valid) (target : rtc.TargetValid)
    (mode : rtc.alarmMode = .mmddhhmmss) (ahead : rtc.clock.dateInt.place < rtc.clock.date.place) :
    IsLeast rtc.laterMatches (rtc.select.days.toNat * 86400 % 2 ^ 32) ↔
      rtc.targetTime.ofDay = rtc.clock.timeInt.ofDay ∧
        if rtc.clock.dateInt.year.toNat % 4 = 0 then
          rtc.clock.date.month.toNat < 3 ∨ 3 ≤ rtc.clock.dateInt.month.toNat
        else ¬ (rtc.clock.date.month.toNat = 2 ∧ rtc.clock.date.day.toNat = 29) := by
  obtain ⟨⟨first, -⟩, positive, inside⟩ := target.inYear mode
  have few : rtc.clock.date.place ≤ 366 := (Nat.le_add_right ..).trans (dayInYear_le positive inside)
  have days : rtc.select.days.toNat = rtc.clock.date.place - rtc.clock.dateInt.place := by
    rw [(select_dateInYear valid target mode).1 (Nat.ne_of_gt ahead)]
    omega
  rw [days, Nat.mod_eq_of_lt (by omega), isLeast_wholeDays_iff valid target (by omega),
    laterDates_inYear valid mode]
  exact and_congr_right fun _ => @dateAhead_iff (rtc.clock.moment valid) _ _ first positive inside ahead

/-- **A place in front of the current one**: the days are subtracted as unsigned ones. -/
theorem not_isLeast_placeBefore (valid : rtc.clock.Valid) (target : rtc.TargetValid)
    (mode : rtc.alarmMode = .mmddhhmmss) (before : rtc.clock.date.place < rtc.clock.dateInt.place) :
    ¬ IsLeast rtc.laterMatches (rtc.select.days.toNat * 86400 % 2 ^ 32) := by
  obtain ⟨-, positive, inside⟩ := target.inYear mode
  have few : rtc.clock.dateInt.place ≤ 366 := valid.2.place_le
  have days : rtc.select.days.toNat = 2 ^ 32 - (rtc.clock.dateInt.place - rtc.clock.date.place) := by
    rw [(select_dateInYear valid target mode).1 (Nat.ne_of_lt before)]
    omega
  obtain ⟨soon, there, near⟩ := exists_date (rtc.clock.moment valid) positive inside
  rw [← laterDates_inYear valid mode] at there
  rw [days, days_wrapped (by omega) (by omega)]
  exact not_isLeast_of_late valid target there (by omega)

/-- **The current date**: it is waited for over a year. -/
theorem isLeast_sameDate_iff (valid : rtc.clock.Valid) (target : rtc.TargetValid)
    (mode : rtc.alarmMode = .mmddhhmmss) (defined : rtc.RdnCallsDefined)
    (month : rtc.clock.date.month.toNat = rtc.clock.dateInt.month.toNat)
    (day : rtc.clock.date.day.toNat = rtc.clock.dateInt.day.toNat) :
    IsLeast rtc.laterMatches (rtc.select.days.toNat * 86400 % 2 ^ 32) ↔
      rtc.targetTime.ofDay = rtc.clock.timeInt.ofDay ∧
        ¬ (rtc.clock.date.month.toNat = 2 ∧ rtc.clock.date.day.toNat = 29) ∧
        ¬ FebruaryDiffers
          (if rtc.clock.dateInt.month.toNat < 3 then rtc.clock.dateInt.year else rtc.clock.dateInt.year + 1) := by
  obtain ⟨year, is_year⟩ : ∃ year, year =
      if rtc.clock.dateInt.month.toNat < 3 then rtc.clock.dateInt.year else rtc.clock.dateInt.year + 1 := ⟨_, rfl⟩
  have place : rtc.clock.date.place = rtc.clock.dateInt.place := by
    unfold Date.place
    rw [month, day]
  obtain ⟨next, days⟩ := (select_dateInYear valid target mode).2 place defined
  have marchYears : marchYear (toInt rtc.clock.dateInt.year + 1) rtc.clock.date.month.toNat = toInt year ∧
      marchYear (toInt rtc.clock.dateInt.year) rtc.clock.dateInt.month.toNat = toInt year - 1 := by
    rw [is_year, month]
    unfold marchYear
    split_ifs <;> omega
  rw [marchYears.1, marchYears.2] at days
  have step := leapDays_step (toInt year)
  have length : (rtc.select.days.toNat : Int) = 365 + (leapDays (toInt year) - leapDays (toInt year - 1)) := by
    omega
  have calendar : yearDays year.toNat = yearDays (if rtc.clock.dateInt.month.toNat < 3 then
      rtc.clock.dateInt.year.toNat else rtc.clock.dateInt.year.toNat + 1) := by
    rw [is_year]
    split_ifs
    · rfl
    · unfold yearDays
      rw [UInt32.toNat_add, UInt32.toNat_one, Nat.mod_mod_of_dvd _ (by decide)]
  have lengthRight := yearLength_eq_iff year
  rw [← length, Int.natCast_inj, calendar] at lengthRight
  rw [← is_year, Nat.mod_eq_of_lt (by omega), isLeast_wholeDays_iff valid target (by omega),
    laterDates_inYear valid mode, ← lengthRight, month, day]
  exact and_congr_right fun _ => (@sameDate_iff (rtc.clock.moment valid) _ (by omega) (by omega)).trans and_comm

/-- **The leap day, from 1 March on**: it is waited for over a common year. -/
theorem isLeast_leapDay_iff (valid : rtc.clock.Valid) (target : rtc.TargetValid)
    (mode : rtc.alarmMode = .mmddhhmmss) (defined : rtc.RdnCallsDefined)
    (leapDay : rtc.clock.date.month.toNat = 2 ∧ rtc.clock.date.day.toNat = 29)
    (march : rtc.clock.dateInt.month.toNat = 3 ∧ rtc.clock.dateInt.day.toNat = 1) :
    IsLeast rtc.laterMatches (rtc.select.days.toNat * 86400 % 2 ^ 32) ↔
      rtc.targetTime.ofDay = rtc.clock.timeInt.ofDay ∧ (rtc.clock.dateInt.year.toNat + 1) % 4 = 0 := by
  have place : rtc.clock.date.place = rtc.clock.dateInt.place := by
    unfold Date.place
    rw [leapDay.1, leapDay.2, march.1, march.2]
    rfl
  obtain ⟨-, days⟩ := (select_dateInYear valid target mode).2 place defined
  rw [leapDay.1, march.1, marchYear, if_pos (by decide), marchYear, if_neg (by decide)] at days
  have whole : rtc.select.days.toNat = 365 := by
    rw [Int.add_sub_cancel] at days
    omega
  rw [whole, Nat.mod_eq_of_lt (by decide), isLeast_wholeDays_iff valid target (by decide),
    laterDates_inYear valid mode, leapDay.1, leapDay.2]
  exact and_congr_right fun _ => @leapDay_iff (rtc.clock.moment valid) march.1 march.2

/-- **1 March, from the leap day on**: it is waited for over a year, and comes the next day. -/
theorem not_isLeast_march (valid : rtc.clock.Valid) (target : rtc.TargetValid)
    (mode : rtc.alarmMode = .mmddhhmmss) (defined : rtc.RdnCallsDefined)
    (march : rtc.clock.date.month.toNat = 3 ∧ rtc.clock.date.day.toNat = 1)
    (leapDay : rtc.clock.dateInt.month.toNat = 2 ∧ rtc.clock.dateInt.day.toNat = 29) :
    ¬ IsLeast rtc.laterMatches (rtc.select.days.toNat * 86400 % 2 ^ 32) := by
  have place : rtc.clock.date.place = rtc.clock.dateInt.place := by
    unfold Date.place
    rw [leapDay.1, leapDay.2, march.1, march.2]
    rfl
  obtain ⟨-, days⟩ := (select_dateInYear valid target mode).2 place defined
  rw [march.1, leapDay.1, marchYear, if_neg (by decide), marchYear, if_pos (by decide)] at days
  have long : 365 ≤ rtc.select.days.toNat ∧ rtc.select.days.toNat ≤ 367 := by
    have first := leapDays_step (toInt rtc.clock.dateInt.year)
    have second := leapDays_step (toInt rtc.clock.dateInt.year + 1)
    rw [Int.add_sub_cancel] at second
    omega
  obtain ⟨next, reached, -, nextMonth, nextDay⟩ := exists_next (rtc.clock.moment valid)
  have tomorrow : 1 ∈ rtc.laterDates := by
    have inside : rtc.clock.dateInt.day.toNat ≤
        monthDays rtc.clock.dateInt.year.toNat rtc.clock.dateInt.month.toNat := valid.2.dayLast
    have short : monthDays rtc.clock.dateInt.year.toNat 2 ≤ 29 := monthDays_le_leap _ 2
    rw [laterDates_inYear valid mode, march.1, march.2]
    refine ⟨Nat.one_pos, next, ?_, ?_, nextDay⟩
    · change next.days = _ + (monthDays rtc.clock.dateInt.year.toNat rtc.clock.dateInt.month.toNat -
        rtc.clock.dateInt.day.toNat + 1) at reached
      rw [leapDay.1, leapDay.2] at inside reached
      omega
    · change next.month = (following _ rtc.clock.dateInt.month.toNat).2 at nextMonth
      rw [nextMonth, leapDay.1]
      rfl
  rw [Nat.mod_eq_of_lt (by omega)]
  exact not_isLeast_of_late valid target tomorrow (by omega)

/-- **A date of the year**: the alarm is set to its next time exactly when it is foreseen. -/
theorem dateAlarm_iff (valid : rtc.clock.Valid) (target : rtc.TargetValid)
    (mode : rtc.alarmMode = .mmddhhmmss) (defined : rtc.RdnCallsDefined) :
    (∃ delay, rtc.armed = some delay ∧ IsLeast rtc.laterMatches delay.toNat) ↔
      rtc.targetTime.ofDay = rtc.clock.timeInt.ofDay ∧
        DateInYearForeseen rtc.clock.date rtc.clock.dateInt := by
  have armed : rtc.armed = some (rtc.select.days * 24 * 60 * 60) := by
    rw [armed_date target, if_neg fun both => by rw [mode] at both; cases both.1]
  obtain ⟨⟨first, -⟩, positive, inside⟩ := target.inYear mode
  have current : 1 ≤ rtc.clock.dateInt.day.toNat := UInt32.le_iff_toNat_le.mp valid.2.2.2.1
  have inYear : rtc.clock.dateInt.day.toNat ≤
      monthDays rtc.clock.dateInt.year.toNat rtc.clock.dateInt.month.toNat := valid.2.dayLast
  have longest := inYear.trans (monthDays_le_leap ..)
  have places := dayInYear_eq_iff positive inside current longest
  rw [armed]
  simp only [Option.some.injEq, exists_eq_left', toNat_days]
  rw [dateInYearForeseen_iff]
  rcases Nat.lt_trichotomy rtc.clock.date.place rtc.clock.dateInt.place with before | same | ahead
  · refine iff_of_false (not_isLeast_placeBefore valid target mode before) ?_
    have apart := mt places.mpr (Nat.ne_of_lt before)
    rintro ⟨-, ⟨later, -⟩ | ⟨same, -⟩ | ⟨march, leapDay, -⟩⟩
    · have ordered : rtc.clock.dateInt.place ≤ rtc.clock.date.place :=
        dayInYear_le_of_later longest positive (by omega)
      exact Nat.not_lt.mpr ordered before
    · exact apart (.inl same)
    · exact apart (.inr (.inl ⟨leapDay, march⟩))
  · rcases places.mp same with ⟨month, day⟩ | ⟨leapDay, march⟩ | ⟨march, leapDay⟩
    · rw [isLeast_sameDate_iff valid target mode defined month day]
      refine and_congr_right fun _ => ⟨fun right => .inr (.inl ⟨⟨month, day⟩, right⟩), ?_⟩
      rintro (⟨later, -⟩ | ⟨-, right⟩ | ⟨march, leapDay, -⟩)
      · omega
      · exact right
      · omega
    · rw [isLeast_leapDay_iff valid target mode defined leapDay march]
      refine and_congr_right fun _ => ⟨fun leap => .inr (.inr ⟨march, leapDay, leap⟩), ?_⟩
      rintro (⟨later, -⟩ | ⟨sameDate, -⟩ | ⟨-, -, leap⟩)
      · omega
      · omega
      · exact leap
    · refine iff_of_false (not_isLeast_march valid target mode defined march leapDay) ?_
      have leap : rtc.clock.dateInt.year.toNat % 4 = 0 := by
        rcases (has_date_iff longest).mp inYear with leap | other
        · exact leap
        · exact absurd leapDay other
      rintro ⟨-, ⟨-, foreseen⟩ | ⟨sameDate, -⟩ | ⟨nowMarch, -⟩⟩
      · rw [if_pos leap] at foreseen
        omega
      · omega
      · omega
  · rw [isLeast_placeAhead_iff valid target mode ahead]
    have apart := mt places.mpr (Nat.ne_of_gt ahead)
    have later : rtc.clock.dateInt.month.toNat < rtc.clock.date.month.toNat ∨
        rtc.clock.dateInt.month.toNat = rtc.clock.date.month.toNat ∧
          rtc.clock.dateInt.day.toNat < rtc.clock.date.day.toNat := by
      by_contra notLater
      have ordered : rtc.clock.date.place ≤ rtc.clock.dateInt.place :=
        dayInYear_le_of_later inside current (by omega)
      exact Nat.not_lt.mpr ordered ahead
    refine and_congr_right fun _ => ⟨fun foreseen => .inl ⟨later, foreseen⟩, ?_⟩
    rintro (⟨-, foreseen⟩ | ⟨same, -⟩ | ⟨march, leapDay, -⟩)
    · exact foreseen
    · exact absurd (.inl same) apart
    · exact absurd (.inr (.inl ⟨leapDay, march⟩)) apart

/-! ### A date -/

/-- A moment that a date shows lies on its day, or in a later year. -/
theorem days_le_of_shows {date : Date} {moment : Moment} (valid : date.Valid) (shows : date.Shows moment) :
    date.days ≤ moment.days := by
  have year : date.year.toNat ≤ moment.year := shows.year ▸ Nat.mod_le ..
  rcases year.eq_or_lt with same | before
  · change dayOf .. ≤ dayOf ..
    rw [shows.month, shows.day, same]
  · exact Nat.le_of_lt (dayOf_lt_of_year_lt (UInt32.le_iff_toNat_le.mp valid.2.2.1) valid.dayLast before ..)

/-- **The first match of a date**, where it lies behind the current time, is in the year it names. -/
theorem isLeast_laterDate_iff (valid : rtc.clock.Valid) (target : rtc.TargetValid)
    (mode : rtc.alarmMode = .yymmddhhmmss) (later : rtc.TargetLater) (delay : Nat) :
    IsLeast rtc.laterMatches delay ↔ rtc.clock.date.days * 86400 + rtc.targetTime.ofDay =
      rtc.clock.dateInt.days * 86400 + rtc.clock.timeInt.ofDay + delay := by
  have validDate : rtc.clock.date.Valid := by
    have date := target.2
    rwa [mode] at date
  have first : rtc.clock.date.days * 86400 + rtc.targetTime.ofDay -
      (rtc.clock.dateInt.days * 86400 + rtc.clock.timeInt.ofDay) ∈ rtc.laterMatches := by
    unfold TargetLater at later
    have year := rtc.clock.date.year.toNat_lt
    refine (mem_laterMatches_iff valid target).mpr ⟨by omega, ⟨rtc.clock.date.year.toNat,
      rtc.clock.date.month.toNat, rtc.clock.date.day.toNat, 0, 0, 0,
      UInt32.le_iff_toNat_le.mp validDate.2.2.1, validDate.dayLast, by decide, by decide, by decide⟩, ?_, ?_⟩
    · change rtc.clock.date.days * 86400 + _ = _
      omega
    · rw [mode]
      exact ⟨rfl, rfl, (Nat.mod_eq_of_lt year).symm⟩
  have least : ∀ other ∈ rtc.laterMatches, rtc.clock.date.days * 86400 + rtc.targetTime.ofDay -
      (rtc.clock.dateInt.days * 86400 + rtc.clock.timeInt.ofDay) ≤ other := by
    intro other matched
    obtain ⟨-, moment, passed, date⟩ := (mem_laterMatches_iff valid target).mp matched
    rw [mode] at date
    have behind := days_le_of_shows validDate date
    omega
  have unique : IsLeast rtc.laterMatches delay ↔ delay = rtc.clock.date.days * 86400 +
      rtc.targetTime.ofDay - (rtc.clock.dateInt.days * 86400 + rtc.clock.timeInt.ofDay) :=
    ⟨fun found => found.unique ⟨first, least⟩, fun same => same ▸ ⟨first, least⟩⟩
  unfold TargetLater at later
  rw [unique]
  omega

/-- What the case `YYMMDDHHMMSS` takes for the days. -/
theorem select_date (mode : rtc.alarmMode = .yymmddhhmmss) :
    rtc.select.days = rtc.clock.date.dayNumber - rtc.clock.dateInt.dayNumber := by
  simp only [select, mode]
  rfl

/-- A number of days that differs from the way to a date by the leap days that are left out leads to the date
exactly when none is. -/
theorem gap_iff {gap days time target : Nat} {missed : Int} (now : time < 86400) (then' : target < 86400)
    (near : gap ≤ 49711) (low : -1000 ≤ missed) (high : missed ≤ 1000) (later : time < gap * 86400 + target)
    (word : (days : Int) = (gap - missed) % 2 ^ 32) :
    days ≠ 0 ∧ gap * 86400 + target = time + days * 86400 % 2 ^ 32 ↔
      target = time ∧ missed = 0 ∧ gap ≤ 49710 := by
  constructor
  · rintro ⟨some_days, same⟩
    obtain ⟨turns, wrapped⟩ : ∃ turns : Int,
        (days * 86400 % 2 ^ 32 : Nat) = (gap - missed) * 86400 - 2 ^ 32 * turns :=
      ⟨(gap - missed) * 86400 / 2 ^ 32, by omega⟩
    have short := Nat.mod_lt (days * 86400) (show 0 < 2 ^ 32 by decide)
    obtain ⟨seconds, is_seconds⟩ : ∃ seconds, seconds = days * 86400 % 2 ^ 32 := ⟨_, rfl⟩
    rw [← is_seconds] at wrapped short same
    clear is_seconds word
    have noTurn : turns = 0 := by omega
    subst noTurn
    have counted : missed = 0 := by omega
    omega
  · rintro ⟨same, rfl, short⟩
    omega

/-- **A date that lies behind the current time**: the alarm is set to it exactly when the times are the same,
`rdn` counts the leap days in between, and the seconds fit an `unsigned int`. -/
theorem laterDate_iff (valid : rtc.clock.Valid) (target : rtc.TargetValid)
    (mode : rtc.alarmMode = .yymmddhhmmss) (defined : rtc.RdnCallsDefined) (later : rtc.TargetLater) :
    (∃ delay, rtc.armed = some delay ∧ IsLeast rtc.laterMatches delay.toNat) ↔
      rtc.targetTime.ofDay = rtc.clock.timeInt.ofDay ∧
        rtc.clock.date.leftOut = rtc.clock.dateInt.leftOut ∧
        rtc.clock.date.days ≤ rtc.clock.dateInt.days + 49710 := by
  have validDate : rtc.clock.date.Valid := by
    have date := target.2
    rwa [mode] at date
  unfold RdnCallsDefined at defined
  rw [mode] at defined
  have now := ofDay_lt valid.1
  have then' := ofDay_lt target.1
  have days : (rtc.select.days.toNat : Int) =
      (rtc.clock.date.number - rtc.clock.dateInt.number) % 2 ^ 32 := by
    rw [select_date mode, Date.dayNumber_eq validDate, Date.dayNumber_eq valid.2, toNat_ofInt_sub]
    omega
  have armed : (∃ delay, rtc.armed = some delay ∧ IsLeast rtc.laterMatches delay.toNat) ↔
      rtc.select.days.toNat ≠ 0 ∧ rtc.clock.date.days * 86400 + rtc.targetTime.ofDay =
        rtc.clock.dateInt.days * 86400 + rtc.clock.timeInt.ofDay + rtc.select.days.toNat * 86400 % 2 ^ 32 := by
    have zero : rtc.select.days = 0 ↔ rtc.select.days.toNat = 0 := by
      rw [← UInt32.toNat_inj, UInt32.toNat_zero]
    rw [armed_date target]
    simp only [mode, true_and, zero]
    split_ifs with same
    · simp [same]
    · simp only [Option.some.injEq, exists_eq_left', toNat_days, isLeast_laterDate_iff valid target mode later,
        ne_eq, same, not_false_eq_true, true_and]
  rw [armed]
  unfold TargetLater at later
  by_cases near : rtc.clock.date.days ≤ rtc.clock.dateInt.days + 49711
  · obtain ⟨half, low, high⟩ := Date.leftOut_near validDate valid.2 defined.1 defined.2 (by omega) near
    obtain ⟨gap, is_gap⟩ : ∃ gap, rtc.clock.date.days = rtc.clock.dateInt.days + gap :=
      ⟨rtc.clock.date.days - rtc.clock.dateInt.days, by omega⟩
    rw [Date.number_eq_days validDate, Date.number_eq_days valid.2] at days
    simp only [half] at days
    have word : (rtc.select.days.toNat : Int) =
        (gap - (rtc.clock.date.leftOut - rtc.clock.dateInt.leftOut)) % 2 ^ 32 := by
      rw [days]
      congr 1
      omega
    rw [is_gap, Nat.add_mul, Nat.add_assoc, Nat.add_assoc, Nat.add_left_cancel_iff, Nat.add_le_add_iff_left,
      ← Int.sub_eq_zero (a := rtc.clock.date.leftOut)]
    exact gap_iff now then' (by omega) low high (by omega) word
  · refine iff_of_false ?_ fun right => near (by omega)
    rintro ⟨-, same⟩
    omega

/-- **A date that does not lie behind the current time**: no alarm is set exactly when `rdn` gives it the number
of the current date. -/
theorem notLater_iff (valid : rtc.clock.Valid) (target : rtc.TargetValid)
    (mode : rtc.alarmMode = .yymmddhhmmss) (defined : rtc.RdnCallsDefined) (notLater : ¬ rtc.TargetLater) :
    rtc.armed = none ↔ rtc.clock.date = rtc.clock.dateInt ∨ rtc.clock.date.Confused rtc.clock.dateInt := by
  have validDate : rtc.clock.date.Valid := by
    have date := target.2
    rwa [mode] at date
  unfold RdnCallsDefined at defined
  rw [mode] at defined
  have unset : rtc.armed = none ↔ rtc.select.days = 0 := by
    rw [armed_date target]
    simp [mode]
  rw [unset, select_date mode, Date.dayNumber_eq_iff validDate valid.2 defined.1 defined.2,
    Date.number_eq_iff validDate valid.2]
  refine or_congr_right (or_iff_left ?_)
  rintro ⟨year, ⟨february, leapDay⟩, ⟨march, day⟩, -⟩
  -- 1 March lies behind the leap day.
  have now := ofDay_lt valid.1
  have behind : rtc.clock.dateInt.days < rtc.clock.date.days := by
    have has := valid.2.dayLast
    rw [february, leapDay] at has
    unfold Date.days dayOf
    rw [← year, february, leapDay, march, day]
    exact Nat.add_lt_add_left (Nat.add_lt_add_left (Nat.lt_of_lt_of_le (Nat.lt_succ_self 28) has) 31) _
  unfold TargetLater at notLater
  omega

/-! ### The date modes -/

/-- **Date alarms**: `setAlarm` sets the delay to the first match, and to none for a date that lies behind,
exactly when its calls of `rdn` do not overflow and the target is foreseen. -/
theorem dateForeseen_iff (valid : rtc.clock.Valid) (target : rtc.TargetValid) :
    rtc.DateRight ↔ rtc.RdnCallsDefined ∧ rtc.DateForeseen := by
  refine and_congr_right fun defined => ?_
  rw [armed_seconds_iff]
  unfold DateForeseen
  dsimp only
  obtain ⟨-, date⟩ := id target
  cases mode : rtc.alarmMode with
  | ddhhmmss =>
    rw [if_neg fun both => by cases both.1]
    exact dayAlarm_iff valid target mode
  | mmddhhmmss =>
    rw [if_neg fun both => by cases both.1]
    exact dateAlarm_iff valid target mode defined
  | yymmddhhmmss =>
    by_cases later : rtc.TargetLater
    · rw [if_neg fun both => both.2 later, if_pos later]
      exact laterDate_iff valid target mode defined later
    · rw [if_pos ⟨rfl, later⟩, if_neg later]
      exact notLater_iff valid target mode defined later
  | _ =>
    rw [mode] at date
    exact date.elim

/-- The day after tomorrow, at the current time. -/
def dayAfterTomorrow : AlarmClock :=
  toMatch .ddhhmmss ⟨9, 0, 0, 0⟩ ⟨27, 2, 2016⟩ ⟨9, 0, 0, 0⟩ ⟨29, 1, 2016⟩

theorem dateForeseen_iff_dayAfterTomorrow : dayAfterTomorrow.DateRight :=
  (@dateForeseen_iff dayAfterTomorrow (by decide) (by decide)).mpr
    ⟨⟨by decide, by decide, by decide, by decide⟩, rfl, .inl (by decide)⟩

/-- On the current date, the times decide. -/
theorem targetLater_today (today : rtc.clock.date = rtc.clock.dateInt) :
    rtc.TargetLater ↔ rtc.clock.timeInt.ofDay < rtc.targetTime.ofDay := by
  unfold TargetLater
  rw [today]
  exact Nat.add_lt_add_iff_left

/-- From nine to a quarter past, today. -/
def quarterPast : AlarmClock :=
  toMatch .yymmddhhmmss ⟨9, 0, 0, 0⟩ ⟨1, 1, 2016⟩ ⟨9, 15, 0, 0⟩ ⟨1, 1, 2016⟩

/-- **Later today**: no alarm is set, though the target lies behind the current time. -/
theorem today_not_armed : ¬ ∀ rtc : AlarmClock, rtc.clock.timeMode = true → rtc.clock.Valid →
    rtc.TargetValid → rtc.DateRight := by
  intro always
  have h24 : quarterPast.clock.timeMode = true := rfl
  have valid : quarterPast.clock.Valid := by decide
  have target : quarterPast.TargetValid := by decide
  have later : quarterPast.TargetLater := (targetLater_today rfl).mpr (by decide)
  have unset : quarterPast.armed = none := by
    rw [armed_date target, if_pos ⟨rfl, UInt32.sub_self (Date.dayNumber ⟨1, 1, 2016⟩)⟩]
  refine absurd (always quarterPast h24 valid target) ?_
  rw [DateRight, if_neg fun both => both.2 later, unset]
  exact fun right => Bool.false_ne_true right.2.1

end AlarmClock

end PrimoCore.Rtc
