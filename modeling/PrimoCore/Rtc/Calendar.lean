/-
**When the clock holds a calendar date.**

`RTCInt.Valid` says that the internal clock shows a time of day and a day that exists in its month.
The setters check one field at a time, so a setter call can leave it; a tick cannot.

* `tick_valid` — a tick keeps a valid clock valid: each field rolls over exactly at its limit.
* `step_valid_iff` — a call keeps a valid clock valid exactly when it meets `RTCInt.Keeps`: twelve
  o'clock is not stored with a meridian in 12-hour mode, and the day that stands after a date setter
  exists in the month and year that stand after it.
* `clock_always_valid_iff` — **over every run of calls and ticks**, the clock is valid all the time
  exactly when every call of the run meets `Keeps`.
-/

import Mathlib.Tactic.SplitIfs
import PrimoCore.Rtc.Clock

namespace PrimoCore.Rtc

open PrimoCore.Lib

/-- The number of days the handler's table gives a month. -/
def daysInMonth (month year : UInt32) : UInt32 := dayLimit month year - 1

/-- A time of day. -/
def Time.Valid (time : Time) : Prop :=
  time.hour ≤ 23 ∧ time.minute ≤ 59 ∧ time.second ≤ 59

/-- A day that exists in its month. -/
def Date.Valid (date : Date) : Prop :=
  1 ≤ date.month ∧ date.month ≤ 12 ∧ 1 ≤ date.day ∧ date.day ≤ daysInMonth date.month date.year

/-- The internal clock holds a time of day and an existing day. -/
def RTCInt.Valid (rtc : RTCInt) : Prop := rtc.timeInt.Valid ∧ rtc.dateInt.Valid

instance (time : Time) : Decidable time.Valid := inferInstanceAs (Decidable (_ ∧ _))

instance (date : Date) : Decidable date.Valid := inferInstanceAs (Decidable (_ ∧ _))

instance (rtc : RTCInt) : Decidable rtc.Valid := inferInstanceAs (Decidable (_ ∧ _))

/-! ### The table -/

/-- Every row of the table has a limit between 29 and 32, in both columns. -/
theorem daysPerMonth_bounds : ∀ index < 12,
    (29 ≤ (daysPerMonth.getD index (0, 0)).1 ∧ (daysPerMonth.getD index (0, 0)).1 ≤ 32) ∧
      (29 ≤ (daysPerMonth.getD index (0, 0)).2 ∧ (daysPerMonth.getD index (0, 0)).2 ≤ 32) := by
  decide

theorem dayLimit_bounds {month : UInt32} (first : 1 ≤ month) (last : month ≤ 12) (year : UInt32) :
    29 ≤ dayLimit month year ∧ dayLimit month year ≤ 32 := by
  have inTable : (month - 1).toNat < 12 := by
    rw [UInt32.toNat_sub_of_le _ _ first]
    have := UInt32.le_iff_toNat_le.mp last
    simp only [UInt32.reduceToNat] at this ⊢
    omega
  have row := daysPerMonth_bounds _ inTable
  simp only [dayLimit]
  split
  · exact row.2
  · exact row.1

/-! ### A tick -/

theorem nextDay_valid {date : Date} (valid : date.Valid) : date.nextDay.Valid := by
  obtain ⟨first, last, positive, fits⟩ := valid
  have limit := dayLimit_bounds first last date.year
  have january := dayLimit_bounds (by decide : (1 : UInt32) ≤ 1) (by decide) (date.year + 1)
  simp only [Date.nextDay, daysInMonth] at fits ⊢
  split_ifs with atLimit december
  · have one : (1 : UInt32) ≤ 1 := by decide
    have inYear : (1 : UInt32) ≤ 12 := by decide
    refine ⟨one, inYear, one, ?_⟩
    simp only [daysInMonth]
    grind
  · have nextLast : date.month + 1 ≤ 12 := by grind
    have nextFirst : 1 ≤ date.month + 1 := by grind
    have next := dayLimit_bounds nextFirst nextLast date.year
    refine ⟨nextFirst, nextLast, (by decide : (1 : UInt32) ≤ 1), ?_⟩
    simp only [daysInMonth]
    grind
  · refine ⟨first, last, ?_, ?_⟩
    · show 1 ≤ date.day + 1
      grind
    · show date.day + 1 ≤ dayLimit date.month date.year - 1
      grind

theorem nextHour_valid {rtc : RTCInt} (valid : rtc.Valid) : rtc.nextHour.Valid := by
  obtain ⟨⟨hour, minute, second⟩, date⟩ := valid
  unfold RTCInt.nextHour
  split_ifs with midnight
  · exact ⟨⟨(by decide : (0 : UInt32) ≤ 23), minute, second⟩, nextDay_valid date⟩
  · refine ⟨⟨?_, minute, second⟩, date⟩
    show rtc.timeInt.hour + 1 ≤ 23
    grind

theorem nextMinute_valid {rtc : RTCInt} (valid : rtc.Valid) : rtc.nextMinute.Valid := by
  obtain ⟨⟨hour, minute, second⟩, date⟩ := valid
  unfold RTCInt.nextMinute
  split_ifs with full
  · exact nextHour_valid ⟨⟨hour, (by decide : (0 : UInt32) ≤ 59), second⟩, date⟩
  · refine ⟨⟨hour, ?_, second⟩, date⟩
    show rtc.timeInt.minute + 1 ≤ 59
    grind

theorem nextSecond_valid {rtc : RTCInt} (valid : rtc.Valid) : rtc.nextSecond.Valid := by
  obtain ⟨⟨hour, minute, second⟩, date⟩ := valid
  unfold RTCInt.nextSecond
  split_ifs with full
  · exact nextMinute_valid ⟨⟨hour, minute, (by decide : (0 : UInt32) ≤ 59)⟩, date⟩
  · refine ⟨⟨hour, minute, ?_⟩, date⟩
    show rtc.timeInt.second + 1 ≤ 59
    grind

/-- **A tick keeps a valid clock valid.** -/
theorem tick_valid {rtc : RTCInt} (valid : rtc.Valid) : rtc.tick.Valid := by
  unfold RTCInt.tick
  split_ifs
  · exact nextSecond_valid valid
  · exact valid

/-! ### The time setters -/

/-- `setHour` stores an hour of the day: in 12-hour mode, not twelve with a meridian. -/
def HourFits (timeMode : Bool) (hour : UInt32) (meridian : UInt8) : Prop :=
  ¬ (timeMode = false ∧ hour = 12 ∧ meridian ≠ 0)

instance (timeMode : Bool) (hour : UInt32) (meridian : UInt8) :
    Decidable (HourFits timeMode hour meridian) := inferInstanceAs (Decidable (¬ _))

theorem setHour_valid_iff {rtc : RTCInt} (valid : rtc.Valid) (hour : UInt32) (meridian : UInt8) :
    (rtc.setHour hour meridian).Valid ↔ HourFits rtc.timeMode hour meridian := by
  obtain ⟨⟨oldHour, minute, second⟩, date⟩ := valid
  unfold RTCInt.setHour HourFits
  split_ifs with mode inDay inHalf post
  · simp [RTCInt.Valid, Time.Valid, mode, inDay, minute, second, date]
  · simp [RTCInt.Valid, Time.Valid, mode, oldHour, minute, second, date]
  · have exact_hour : hour + 12 ≤ 23 ↔ hour ≠ 12 := by grind
    simp [RTCInt.Valid, Time.Valid, mode, post, minute, second, date, exact_hour]
  · have small : hour ≤ 23 := by grind
    simp [RTCInt.Valid, Time.Valid, post, small, minute, second, date]
  · have other : hour ≠ 12 := by grind
    simp [RTCInt.Valid, Time.Valid, other, oldHour, minute, second, date]

@[simp] theorem setHour_minute (rtc : RTCInt) (hour : UInt32) (meridian : UInt8) :
    (rtc.setHour hour meridian).timeInt.minute = rtc.timeInt.minute := by
  unfold RTCInt.setHour
  split_ifs <;> rfl

@[simp] theorem setHour_second (rtc : RTCInt) (hour : UInt32) (meridian : UInt8) :
    (rtc.setHour hour meridian).timeInt.second = rtc.timeInt.second := by
  unfold RTCInt.setHour
  split_ifs <;> rfl

@[simp] theorem setMinute_second (rtc : RTCInt) (minute : UInt32) :
    (rtc.setMinute minute).timeInt.second = rtc.timeInt.second := by
  unfold RTCInt.setMinute
  split_ifs <;> rfl

theorem setMinute_valid_iff {rtc : RTCInt} (old : rtc.timeInt.minute ≤ 59) (minute : UInt32) :
    (rtc.setMinute minute).Valid ↔ rtc.Valid := by
  unfold RTCInt.setMinute
  split_ifs with fits
  · simp [RTCInt.Valid, Time.Valid, fits, old]
  · rfl

theorem setSecond_valid_iff {rtc : RTCInt} (old : rtc.timeInt.second ≤ 59) (second : UInt32) :
    (rtc.setSecond second).Valid ↔ rtc.Valid := by
  unfold RTCInt.setSecond
  split_ifs with fits
  · simp [RTCInt.Valid, Time.Valid, fits, old]
  · rfl

/-- Only the hour decides whether `setTime` keeps a valid clock valid. -/
theorem setTime_valid_iff {rtc : RTCInt} (valid : rtc.Valid) (hour : UInt32) (meridian : UInt8)
    (minute second : UInt32) :
    (rtc.setTime hour meridian minute second).Valid ↔ HourFits rtc.timeMode hour meridian := by
  have oldMinute : (rtc.setHour hour meridian).timeInt.minute ≤ 59 := by
    rw [setHour_minute]
    exact valid.1.2.1
  have oldSecond : ((rtc.setHour hour meridian).setMinute minute).timeInt.second ≤ 59 := by
    rw [setMinute_second, setHour_second]
    exact valid.1.2.2
  rw [RTCInt.setTime, setSecond_valid_iff oldSecond, setMinute_valid_iff oldMinute,
    setHour_valid_iff valid]

/-! ### The date setters -/

/-- The day that stands after `setDay`. -/
def Date.standingDay (date : Date) (day : UInt32) : UInt32 :=
  if 1 ≤ day ∧ day ≤ 31 then day else date.day

/-- The month that stands after `setMonth`. -/
def Date.standingMonth (date : Date) (month : UInt32) : UInt32 :=
  if 1 ≤ month ∧ month ≤ 12 then month else date.month

theorem setDay_eq (rtc : RTCInt) (day : UInt32) : rtc.setDay day =
    { rtc with dateInt := { rtc.dateInt with day := rtc.dateInt.standingDay day } } := by
  unfold RTCInt.setDay Date.standingDay
  split_ifs <;> rfl

theorem setMonth_eq (rtc : RTCInt) (month : UInt32) : rtc.setMonth month =
    { rtc with dateInt := { rtc.dateInt with month := rtc.dateInt.standingMonth month } } := by
  unfold RTCInt.setMonth Date.standingMonth
  split_ifs <;> rfl

/-- A call of `setDate` leaves the day and the month that stand, and the year. -/
theorem setDate_eq (rtc : RTCInt) (day month year : UInt32) : rtc.setDate day month year =
    { rtc with
      dateInt := ⟨rtc.dateInt.standingDay day, rtc.dateInt.standingMonth month, year⟩ } := by
  rw [RTCInt.setDate, setDay_eq, setMonth_eq]
  rfl

theorem standingDay_positive {date : Date} (valid : date.Valid) (day : UInt32) :
    1 ≤ date.standingDay day := by
  unfold Date.standingDay
  split_ifs with fits
  · exact fits.1
  · exact valid.2.2.1

theorem standingMonth_bounds {date : Date} (valid : date.Valid) (month : UInt32) :
    1 ≤ date.standingMonth month ∧ date.standingMonth month ≤ 12 := by
  unfold Date.standingMonth
  split_ifs with fits
  · exact fits
  · exact ⟨valid.1, valid.2.1⟩

/-! ### Runs -/

/-- **What a call must meet to keep the clock valid.** The hour fits the mode; the day that stands
exists in the month and year that stand. -/
def RTCInt.Keeps (rtc : RTCInt) : Input → Prop
  | .setHour hour meridian => HourFits rtc.timeMode hour meridian
  | .setTime hour meridian _ _ => HourFits rtc.timeMode hour meridian
  | .setTimeFromRecord => HourFits rtc.timeMode rtc.time.hour rtc.time.tmode
  | .setDay day =>
      rtc.dateInt.standingDay day ≤ daysInMonth rtc.dateInt.month rtc.dateInt.year
  | .setMonth month =>
      rtc.dateInt.day ≤ daysInMonth (rtc.dateInt.standingMonth month) rtc.dateInt.year
  | .setYear year => rtc.dateInt.day ≤ daysInMonth rtc.dateInt.month year
  | .setDate day month year =>
      rtc.dateInt.standingDay day ≤ daysInMonth (rtc.dateInt.standingMonth month) year
  | .setDateFromRecord =>
      rtc.dateInt.standingDay rtc.date.day ≤
        daysInMonth (rtc.dateInt.standingMonth rtc.date.month) rtc.date.year
  | .setMinute _ | .setSecond _ | .writeTime _ | .writeDate _ | .tick => True

instance (rtc : RTCInt) (input : Input) : Decidable (rtc.Keeps input) :=
  match input with
  | .setHour _ _ | .setTime _ _ _ _ | .setTimeFromRecord => inferInstanceAs (Decidable (HourFits _ _ _))
  | .setDay _ | .setMonth _ | .setYear _ | .setDate _ _ _ | .setDateFromRecord =>
      inferInstanceAs (Decidable (_ ≤ _))
  | .setMinute _ | .setSecond _ | .writeTime _ | .writeDate _ | .tick =>
      inferInstanceAs (Decidable True)

/-- `setDate` keeps a valid clock valid exactly when the standing day exists in the standing month. -/
theorem setDate_valid_iff {rtc : RTCInt} (valid : rtc.Valid) (day month year : UInt32) :
    (rtc.setDate day month year).Valid ↔
      rtc.dateInt.standingDay day ≤ daysInMonth (rtc.dateInt.standingMonth month) year := by
  have months := standingMonth_bounds valid.2 month
  have positive := standingDay_positive valid.2 day
  rw [setDate_eq]
  simp [RTCInt.Valid, Date.Valid, valid.1, months, positive]

/-- **The step lemma.** An input keeps a valid clock valid exactly when it meets `Keeps`. -/
theorem step_valid_iff (rtc : RTCInt) (input : Input) (valid : rtc.Valid) :
    (rtc.step input).Valid ↔ rtc.Keeps input := by
  have fields : rtc.timeInt.Valid ∧ rtc.dateInt.Valid := valid
  cases input with
  | setHour hour meridian => exact setHour_valid_iff valid hour meridian
  | setMinute minute => exact iff_of_true ((setMinute_valid_iff fields.1.2.1 minute).mpr valid) trivial
  | setSecond second => exact iff_of_true ((setSecond_valid_iff fields.1.2.2 second).mpr valid) trivial
  | setTime hour meridian minute second => exact setTime_valid_iff valid hour meridian minute second
  | setTimeFromRecord => exact setTime_valid_iff valid _ _ _ _
  | setDay day =>
    have positive := standingDay_positive fields.2 day
    show (rtc.setDay day).Valid ↔ _
    rw [setDay_eq]
    simp [RTCInt.Valid, RTCInt.Keeps, Date.Valid, fields.1, fields.2.1, fields.2.2.1, positive]
  | setMonth month =>
    have months := standingMonth_bounds fields.2 month
    show (rtc.setMonth month).Valid ↔ _
    rw [setMonth_eq]
    simp [RTCInt.Valid, RTCInt.Keeps, Date.Valid, fields.1, months, fields.2.2.2.1]
  | setYear year =>
    simp [RTCInt.step, RTCInt.setYear, RTCInt.Valid, RTCInt.Keeps, Date.Valid, fields.1,
      fields.2.1, fields.2.2.1, fields.2.2.2.1]
  | setDate day month year => exact setDate_valid_iff valid day month year
  | setDateFromRecord => exact setDate_valid_iff valid _ _ _
  | writeTime time => exact iff_of_true valid trivial
  | writeDate date => exact iff_of_true valid trivial
  | tick => exact iff_of_true (tick_valid valid) trivial

/-- **The clock holds a calendar date and a time of day all through a run of calls and ticks exactly
when every call of the run meets `Keeps`.** -/
theorem clock_always_valid_iff (rtc : RTCInt) (inputs : List Input) (valid : rtc.Valid) :
    Always RTCInt.step RTCInt.Valid rtc inputs ↔ EachStep RTCInt.step RTCInt.Keeps rtc inputs := by
  have anyInput : EachStep RTCInt.step (fun _ _ => True) rtc inputs :=
    eachStep_of_forall (fun _ _ => trivial) rtc inputs
  exact always_iff_eachStep (fun state input good _ => step_valid_iff state input good) valid anyInput

/-- A clock at midnight of a given day. -/
def clockAt (timeMode : Bool) (day month year : UInt32) : RTCInt :=
  ⟨⟨0, 0, 0, 0⟩, ⟨1, 1, 0⟩, ⟨0, 0, 0, 0⟩, ⟨day, month, year⟩, timeMode, 0⟩

/-- A leap day set through a valid date, and the second after it. -/
theorem clock_always_valid_iff_leapDay :
    Always RTCInt.step RTCInt.Valid (clockAt true 1 2 16) [.setDay 29, .tick, .setYear 20] :=
  (clock_always_valid_iff (clockAt true 1 2 16) [.setDay 29, .tick, .setYear 20] (by decide)).mpr
    (by decide)

/-- **Two calls that leave the calendar**: the 31st in February, and 12 p.m. in 12-hour mode. -/
theorem clock_leaves_calendar :
    ¬ (∀ (rtc : RTCInt) (inputs : List Input), rtc.Valid →
      Always RTCInt.step RTCInt.Valid rtc inputs) ∧
    ¬ Always RTCInt.step RTCInt.Valid (clockAt true 1 2 17) [.setDay 31] ∧
    ¬ Always RTCInt.step RTCInt.Valid (clockAt false 1 1 17) [.setHour 12 1] := by
  refine ⟨fun all => ?_, by decide, by decide⟩
  exact absurd (all (clockAt true 1 2 17) [.setDay 31] (by decide)) (by decide)

end PrimoCore.Rtc
