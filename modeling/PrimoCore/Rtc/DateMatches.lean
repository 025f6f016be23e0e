/-
**Alarms on a date, and their first matches.**

A mode that matches a date is right when `setAlarm` arms the alarm for the first second that has the date and the
time of the target. What it arms is a number of whole days, and the time of the target does not enter.

* `RdnCallsDefined`, `TargetValid`, `DateRight` — the calls of `rdn` a mode makes, the targets it takes, and when
  the alarm is right.
* `mem_laterMatches_iff` — a match is a date that the mode matches, and the time of the target.
* `isLeast_wholeDays_iff` — **whole days lead to the first match exactly when** the time of the target is the
  current one and the days lead to the first date.
-/

import PrimoCore.Rtc.DayNumber
import PrimoCore.Rtc.Matching

namespace PrimoCore.Rtc

open PrimoCore.Lib

/-! ### What is to hold -/

namespace AlarmClock

/-- **The calls of `rdn`** that `setAlarm` makes do not overflow. -/
def RdnCallsDefined (rtc : AlarmClock) : Prop :=
  let date := rtc.clock.date
  let dateInt := rtc.clock.dateInt
  match rtc.alarmMode with
  | .yymmddhhmmss => RdnDefined date.year date.month date.day ∧
      RdnDefined dateInt.year dateInt.month dateInt.day
  | .mmddhhmmss => RdnDefined 0 date.month date.day ∧ RdnDefined 0 dateInt.month dateInt.day ∧
      (rdnOf 0 date.month date.day = rdnOf 0 dateInt.month dateInt.day →
        RdnDefined (dateInt.year + 1) date.month date.day ∧
          RdnDefined dateInt.year dateInt.month dateInt.day)
  | .ddhhmmss => RdnDefined dateInt.year dateInt.month date.day ∧
      RdnDefined dateInt.year dateInt.month dateInt.day ∧
      RdnDefined dateInt.year (dateInt.month + 1) date.day ∧
      RdnDefined dateInt.year (dateInt.month + 2) date.day
  | _ => True

/-- **A target of a date mode**: a time of day, and a day of the longest month, a day of a leap year or a
date. -/
def TargetValid (rtc : AlarmClock) : Prop :=
  rtc.targetTime.Valid ∧
    match rtc.alarmMode with
    | .yymmddhhmmss => rtc.clock.date.Valid
    | .mmddhhmmss => Date.Valid { rtc.clock.date with year := 0 }
    | .ddhhmmss => 1 ≤ rtc.clock.date.day ∧ rtc.clock.date.day ≤ 31
    | _ => False

instance (rtc : AlarmClock) : Decidable rtc.TargetValid :=
  @instDecidableAnd _ _ _ <| match rtc.alarmMode with
    | .yymmddhhmmss | .mmddhhmmss => inferInstanceAs (Decidable (Date.Valid _))
    | .ddhhmmss => inferInstanceAs (Decidable (_ ∧ _))
    | .off | .sec | .mmss | .hhmmss | .other => inferInstanceAs (Decidable False)

/-- The target lies behind the current time. -/
def TargetLater (rtc : AlarmClock) : Prop :=
  rtc.clock.dateInt.days * 86400 + rtc.clock.timeInt.ofDay <
    rtc.clock.date.days * 86400 + rtc.targetTime.ofDay

instance (rtc : AlarmClock) : Decidable rtc.TargetLater := inferInstanceAs (Decidable (_ < _))

/-- **The alarm is right**: `setAlarm` arms it for the first match; in the mode that matches the year, for a
target that does not lie behind the current time, it arms nothing. -/
def DateRight (rtc : AlarmClock) : Prop :=
  rtc.RdnCallsDefined ∧
    if rtc.alarmMode = .yymmddhhmmss ∧ ¬ rtc.TargetLater then rtc.armed = none
    else rtc.armed.isSome ∧ IsLeast rtc.laterMatches rtc.setAlarm.alarm.seconds.toNat

end AlarmClock

/-! ### Matches as moments -/

/-- The date of a moment is the one a mode names. -/
def AlarmMode.DateMatches (mode : AlarmMode) (date : Date) (moment : Moment) : Prop :=
  match mode with
  | .ddhhmmss => moment.day = date.day.toNat
  | .mmddhhmmss => moment.month = date.month.toNat ∧ moment.day = date.day.toNat
  | .yymmddhhmmss => date.Shows moment
  | _ => False

/-- The time does not matter to the date. -/
theorem AlarmMode.DateMatches.congr {mode : AlarmMode} {date : Date} {first second : Moment}
    (matched : mode.DateMatches date first) (year : second.year = first.year)
    (month : second.month = first.month) (day : second.day = first.day) : mode.DateMatches date second := by
  cases mode with
  | yymmddhhmmss =>
    exact ⟨matched.day.trans day.symm, matched.month.trans month.symm, by rw [year]; exact matched.year⟩
  | mmddhhmmss => exact ⟨month.trans matched.1, day.trans matched.2⟩
  | ddhhmmss => exact day.trans matched
  | _ => exact matched

theorem Time.Valid.eq_iff {time : Time} (valid : time.Valid) {moment : Moment} {shown : Time}
    (hour : shown.hour.toNat = moment.hour) (minute : shown.minute.toNat = moment.minute)
    (second : shown.second.toNat = moment.second) :
    (shown.hour = time.hour ∧ shown.minute = time.minute ∧ shown.second = time.second) ↔
      moment.ofDay = time.ofDay := by
  obtain ⟨hours, minutes, seconds⟩ := valid.bounds
  have inDay := moment.hourLast
  have inHour := moment.minuteLast
  have inMinute := moment.secondLast
  simp only [← UInt32.toNat_inj, hour, minute, second, Moment.ofDay, Time.ofDay]
  omega

namespace AlarmClock

variable {rtc : AlarmClock}

/-- **A match is a moment** with the date of the mode and the time of the target. -/
theorem matchesAfter_date_iff (valid : rtc.clock.Valid) (target : rtc.TargetValid) (delay : Nat) :
    rtc.MatchesAfter delay ↔ ∃ moment : Moment,
      moment.seconds = (rtc.clock.moment valid).seconds + delay ∧
        moment.ofDay = rtc.targetTime.ofDay ∧ rtc.alarmMode.DateMatches rtc.clock.date moment := by
  obtain ⟨moment, passed, ⟨day, month, year⟩, hour, minute, second⟩ := shows_after valid delay
  have unique : (∃ other : Moment, other.seconds = (rtc.clock.moment valid).seconds + delay ∧
      other.ofDay = rtc.targetTime.ofDay ∧ rtc.alarmMode.DateMatches rtc.clock.date other) ↔
      moment.ofDay = rtc.targetTime.ofDay ∧ rtc.alarmMode.DateMatches rtc.clock.date moment := by
    constructor
    · rintro ⟨other, same, matched⟩
      rwa [Moment.eq_of_seconds (same.trans passed.symm)] at matched
    · exact fun matched => ⟨moment, passed, matched⟩
  obtain ⟨time, date⟩ := target
  rw [unique, ← time.eq_iff hour minute second]
  unfold MatchesAfter AlarmMode.Matches AlarmMode.DateMatches
  cases mode : rtc.alarmMode with
  | ddhhmmss =>
    simp only [← UInt32.toNat_inj (a := (rtc.clockAfter delay).dateInt.day), day]
    exact and_comm
  | mmddhhmmss =>
    simp only [← UInt32.toNat_inj (a := (rtc.clockAfter delay).dateInt.day), day,
      ← UInt32.toNat_inj (a := (rtc.clockAfter delay).dateInt.month), month]
    tauto
  | yymmddhhmmss =>
    have same : (rtc.clockAfter delay).dateInt = rtc.clock.date ↔ rtc.clock.date.Shows moment := by
      constructor
      · intro same
        rw [← same]
        exact ⟨day, month, year⟩
      · rintro ⟨sameDay, sameMonth, sameYear⟩
        exact (Date.eq_iff _ _).mpr ⟨day.trans sameDay.symm, month.trans sameMonth.symm,
          year.trans sameYear.symm⟩
    simp only [same]
    exact and_comm
  | _ =>
    rw [mode] at date
    exact date.elim

/-- **The seconds to a match** are those to its day and to the time of the target. -/
theorem mem_laterMatches_iff (valid : rtc.clock.Valid) (target : rtc.TargetValid) {delay : Nat} :
    delay ∈ rtc.laterMatches ↔ 0 < delay ∧ ∃ moment : Moment,
      moment.days * 86400 + rtc.targetTime.ofDay =
        rtc.clock.dateInt.days * 86400 + rtc.clock.timeInt.ofDay + delay ∧
      rtc.alarmMode.DateMatches rtc.clock.date moment := by
  have start : (rtc.clock.moment valid).seconds =
      rtc.clock.dateInt.days * 86400 + rtc.clock.timeInt.ofDay := (rtc.clock.moment valid).seconds_eq
  refine and_congr_right fun _ => (matchesAfter_date_iff valid target delay).trans ⟨?_, ?_⟩
  · rintro ⟨moment, passed, time, date⟩
    rw [start, moment.seconds_eq, time] at passed
    exact ⟨moment, passed, date⟩
  · rintro ⟨moment, passed, date⟩
    obtain ⟨hours, minutes, seconds⟩ := target.1.bounds
    refine ⟨⟨moment.year, moment.month, moment.day, rtc.targetTime.hour.toNat, rtc.targetTime.minute.toNat,
      rtc.targetTime.second.toNat, moment.dayFirst, moment.dayLast, hours, minutes, seconds⟩, ?_, rfl, ?_⟩
    · rw [start, Moment.seconds_eq]
      exact passed
    · exact date.congr rfl rfl rfl

/-- After how many days there is a date that the mode matches. -/
def laterDates (rtc : AlarmClock) : Set Nat :=
  {days | 0 < days ∧ ∃ moment : Moment, moment.days = rtc.clock.dateInt.days + days ∧
    rtc.alarmMode.DateMatches rtc.clock.date moment}

theorem ofDay_lt {time : Time} (valid : time.Valid) : time.ofDay < 86400 := by
  obtain ⟨hours, minutes, seconds⟩ := valid.bounds
  unfold Time.ofDay
  omega

/-- **A delay of whole days** leads to the first match exactly when the time of the target is the current one
and the days lead to the first date. -/
theorem isLeast_wholeDays_iff (valid : rtc.clock.Valid) (target : rtc.TargetValid) {days : Nat}
    (positive : 0 < days) : IsLeast rtc.laterMatches (days * 86400) ↔
      rtc.targetTime.ofDay = rtc.clock.timeInt.ofDay ∧ IsLeast rtc.laterDates days := by
  have now := ofDay_lt valid.1
  have then' := ofDay_lt target.1
  constructor
  · rintro ⟨matched, least⟩
    obtain ⟨-, moment, passed, date⟩ := (mem_laterMatches_iff valid target).mp matched
    have same : rtc.targetTime.ofDay = rtc.clock.timeInt.ofDay := by omega
    refine ⟨same, ⟨positive, moment, by omega, date⟩, ?_⟩
    rintro other ⟨some_days, later, reached, otherDate⟩
    have passing : later.days * 86400 + rtc.targetTime.ofDay =
        rtc.clock.dateInt.days * 86400 + rtc.clock.timeInt.ofDay + other * 86400 := by
      rw [reached, same, Nat.add_mul, Nat.add_right_comm]
    have alsoMatched : other * 86400 ∈ rtc.laterMatches :=
      (mem_laterMatches_iff valid target).mpr ⟨by omega, later, passing, otherDate⟩
    have after := least alsoMatched
    omega
  · rintro ⟨same, ⟨-, moment, passed, date⟩, least⟩
    refine ⟨(mem_laterMatches_iff valid target).mpr ⟨by omega, moment, by omega, date⟩, ?_⟩
    intro other matched
    obtain ⟨some_time, later, reached, otherDate⟩ := (mem_laterMatches_iff valid target).mp matched
    have alsoDated : later.days - rtc.clock.dateInt.days ∈ rtc.laterDates :=
      ⟨by omega, later, by omega, otherDate⟩
    have after := least alsoDated
    omega

/-- A delay behind the day of a match does not lead to the first one. -/
theorem not_isLeast_of_late (valid : rtc.clock.Valid) (target : rtc.TargetValid) {days delay : Nat}
    (there : days ∈ rtc.laterDates) (late : (days + 1) * 86400 ≤ delay) :
    ¬ IsLeast rtc.laterMatches delay := by
  rintro ⟨-, least⟩
  obtain ⟨positive, moment, passed, date⟩ := there
  have now := ofDay_lt valid.1
  have then' := ofDay_lt target.1
  have matched : days * 86400 + rtc.targetTime.ofDay - rtc.clock.timeInt.ofDay ∈ rtc.laterMatches :=
    (mem_laterMatches_iff valid target).mpr ⟨by omega, moment, by omega, date⟩
  have after := least matched
  omega

/-- What `setAlarm` programs, in a date mode: whole days. -/
theorem armed_date (target : rtc.TargetValid) : rtc.armed =
    if rtc.alarmMode = .yymmddhhmmss ∧ rtc.select.days = 0 then none
    else some (rtc.select.days * 24 * 60 * 60) := by
  obtain ⟨-, date⟩ := target
  cases mode : rtc.alarmMode with
  | ddhhmmss | mmddhhmmss | yymmddhhmmss => simp [armed, seconds, select, mode]
  | _ =>
    rw [mode] at date
    exact date.elim

/-- What `setAlarm` arms is what it leaves in the record. -/
theorem armed_seconds_iff (right : Nat → Prop) :
    (rtc.armed.isSome ∧ right rtc.setAlarm.alarm.seconds.toNat) ↔
      ∃ delay, rtc.armed = some delay ∧ right delay.toNat := by
  unfold setAlarm
  cases armed : rtc.armed with
  | none => simp
  | some delay => simp [program]

/-- The seconds of some days, as an `unsigned int`. -/
theorem toNat_days (days : UInt32) : (days * 24 * 60 * 60).toNat = days.toNat * 86400 % 2 ^ 32 := by
  simp only [UInt32.toNat_mul, UInt32.toNat_ofNat]
  omega

/-- The seconds of a negative number of days that is taken for an unsigned one. -/
theorem days_wrapped {days : Nat} (positive : 0 < days) (few : days ≤ 366) :
    (2 ^ 32 - days) * 86400 % 2 ^ 32 = 2 ^ 32 - days * 86400 := by
  have turns : (2 ^ 32 - days) * 86400 = 2 ^ 32 * 86399 + (2 ^ 32 - days * 86400) := by omega
  rw [turns, Nat.mul_add_mod]
  exact Nat.mod_eq_of_lt (by omega)

end AlarmClock

end PrimoCore.Rtc
