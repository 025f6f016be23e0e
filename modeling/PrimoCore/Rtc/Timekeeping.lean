/-
**The clock keeps time.**

The tick half of `RTC2_IRQHandler` carries through six fields. On a clock that shows a moment of the
calendar, each carry amounts to the seconds of its unit.

* `RTCInt.Shows` — the clock shows a moment; the year is the one an `unsigned int` holds.
* `nextDay_shows`, `nextHour_shows`, `nextMinute_shows`, `nextSecond_shows` — what a carry adds.
* `clock_keeps_time` — **after any number of ticks** the clock shows the moment that lies as many seconds
  behind the first as there are groups of eight ticks.
-/

import Mathlib.Logic.Function.Iterate
import PrimoCore.Lib.LeapCalendar
import PrimoCore.Rtc.Alarm
import PrimoCore.Rtc.Calendar

namespace PrimoCore.Rtc

open PrimoCore.Lib

/-! ### Clocks and moments -/

/-- A date shows the one of a moment. -/
structure Date.Shows (date : Date) (moment : Moment) : Prop where
  day : date.day.toNat = moment.day
  month : date.month.toNat = moment.month
  year : date.year.toNat = moment.year % 2 ^ 32

/-- **The clock shows a moment.** -/
structure RTCInt.Shows (rtc : RTCInt) (moment : Moment) : Prop where
  date : rtc.dateInt.Shows moment
  hour : rtc.timeInt.hour.toNat = moment.hour
  minute : rtc.timeInt.minute.toNat = moment.minute
  second : rtc.timeInt.second.toNat = moment.second

/-- The table of the handler has the months of the calendar. -/
theorem dayLimit_toNat {month year : UInt32} {calendarYear : Nat} (first : 1 ≤ month.toNat)
    (last : month.toNat ≤ 12) (same : year.toNat % 4 = calendarYear % 4) :
    (dayLimit month year).toNat = monthDays calendarYear month.toNat + 1 := by
  have leap : year % 4 = 0 ↔ calendarYear % 4 = 0 := by
    rw [← UInt32.toNat_inj, UInt32.toNat_mod, ← same]
    rfl
  obtain ⟨index, is_index⟩ : ∃ index, index = month.toNat := ⟨_, rfl⟩
  have whole : month = UInt32.ofNat index := by rw [is_index, UInt32.ofNat_toNat]
  rw [← is_index] at first last ⊢
  rw [whole]
  simp only [dayLimit, leap]
  interval_cases index <;> split_ifs with short <;> simp [monthDays, daysPerMonth, short]

/-- The day of a valid date is one of its month in the calendar. -/
theorem Date.Valid.dayLast {date : Date} (valid : date.Valid) :
    date.day.toNat ≤ monthDays date.year.toNat date.month.toNat := by
  obtain ⟨first, last, -, inside⟩ := valid
  have limit := dayLimit_toNat (UInt32.le_iff_toNat_le.mp first) (UInt32.le_iff_toNat_le.mp last)
    (rfl : date.year.toNat % 4 = _)
  have bounds := dayLimit_bounds first last date.year
  rw [daysInMonth, UInt32.le_iff_toNat_le, UInt32.toNat_sub_of_le _ _ (by grind), limit] at inside
  exact inside

/-- The moment a valid clock shows. -/
def RTCInt.moment (rtc : RTCInt) (valid : rtc.Valid) : Moment where
  year := rtc.dateInt.year.toNat
  month := rtc.dateInt.month.toNat
  day := rtc.dateInt.day.toNat
  hour := rtc.timeInt.hour.toNat
  minute := rtc.timeInt.minute.toNat
  second := rtc.timeInt.second.toNat
  dayFirst := UInt32.le_iff_toNat_le.mp valid.2.2.2.1
  dayLast := valid.2.dayLast
  hourLast := Nat.lt_succ_of_le (UInt32.le_iff_toNat_le.mp valid.1.1)
  minuteLast := Nat.lt_succ_of_le (UInt32.le_iff_toNat_le.mp valid.1.2.1)
  secondLast := Nat.lt_succ_of_le (UInt32.le_iff_toNat_le.mp valid.1.2.2)

theorem moment_shown {rtc : RTCInt} (valid : rtc.Valid) : rtc.Shows (rtc.moment valid) :=
  ⟨⟨rfl, rfl, (Nat.mod_eq_of_lt rtc.dateInt.year.toNat_lt).symm⟩, rfl, rfl, rfl⟩

/-! ### The carries -/

/-- One more, as long as it fits. -/
theorem toNat_succ_of_lt {value : UInt32} (below : value.toNat < 4294967295) :
    (value + 1).toNat = value.toNat + 1 := by
  rw [UInt32.toNat_add, UInt32.toNat_one]
  exact Nat.mod_eq_of_lt (by omega)

/-- Below the largest value, the handler's comparison after the increment asks for the last number before
its limit. -/
theorem succ_eq_iff {value limit : UInt32} {shown last : Nat} (below : value.toNat < 4294967295)
    (same : value.toNat = shown) (bound : limit.toNat = last + 1) :
    value + 1 = limit ↔ shown = last := by
  rw [← UInt32.toNat_inj, toNat_succ_of_lt below, same, bound]
  exact Nat.add_right_cancel_iff

/-- **Midnight** leads to the day after, at the same time. -/
theorem nextDay_shows {date : Date} {moment : Moment} (shows : date.Shows moment) :
    ∃ next : Moment, next.days = moment.days + 1 ∧ next.hour = moment.hour ∧
      next.minute = moment.minute ∧ next.second = moment.second ∧ date.nextDay.Shows next := by
  obtain ⟨day, month, year⟩ := shows
  obtain ⟨first, last⟩ := moment.month_bounds
  have inside := moment.dayLast
  have short := monthDays_le moment.year moment.month
  have leap : date.year.toNat % 4 = moment.year % 4 := by
    rw [year]
    omega
  have limit : (dayLimit date.month date.year).toNat = monthDays moment.year moment.month + 1 := by
    rw [dayLimit_toNat (by omega) (by omega) leap, month]
  have dayBelow : date.day.toNat < 4294967295 := by omega
  have monthBelow : date.month.toNat < 4294967295 := by omega
  have atLimit : date.day + 1 = dayLimit date.month date.year ↔
      moment.day = monthDays moment.year moment.month := succ_eq_iff dayBelow day limit
  have december : date.month + 1 = 13 ↔ moment.month = 12 := succ_eq_iff monthBelow month rfl
  simp only [Date.nextDay, atLimit, december]
  split_ifs with lastDay lastMonth
  · refine ⟨moment.nextYear, moment.days_nextYear lastMonth lastDay, rfl, rfl, rfl, rfl, rfl, ?_⟩
    show (date.year + 1).toNat = (moment.year + 1) % 2 ^ 32
    rw [UInt32.toNat_add, year, UInt32.toNat_one, Nat.mod_add_mod]
  · have more : moment.month < 12 := by omega
    refine ⟨moment.nextMonth more, moment.days_nextMonth more lastDay, rfl, rfl, rfl, rfl, ?_, year⟩
    show (date.month + 1).toNat = moment.month + 1
    rw [toNat_succ_of_lt monthBelow, month]
  · have more : moment.day < monthDays moment.year moment.month := by omega
    refine ⟨moment.tomorrow more, moment.days_tomorrow more, rfl, rfl, rfl, ?_, month, year⟩
    show (date.day + 1).toNat = moment.day + 1
    rw [toNat_succ_of_lt dayBelow, day]

/-- A full hour adds 3600 seconds. -/
theorem nextHour_shows {rtc : RTCInt} {moment : Moment} (shows : rtc.Shows moment) :
    ∃ next : Moment, next.seconds = moment.seconds + 3600 ∧ rtc.nextHour.Shows next := by
  obtain ⟨date, hour, minute, second⟩ := shows
  have inDay := moment.hourLast
  have below : rtc.timeInt.hour.toNat < 4294967295 := by omega
  have midnight : rtc.timeInt.hour + 1 = 24 ↔ moment.hour = 23 :=
    succ_eq_iff below hour rfl
  simp only [RTCInt.nextHour, midnight]
  split_ifs with full
  · -- The day after is taken from midnight of this day, so that its hour is the one of the clock.
    have started : rtc.dateInt.Shows { moment with hour := 0, hourLast := by decide } :=
      ⟨date.day, date.month, date.year⟩
    obtain ⟨next, days, sameHour, sameMinute, sameSecond, nextDate⟩ := nextDay_shows started
    refine ⟨next, ?_, nextDate, sameHour.symm, minute.trans sameMinute.symm,
      second.trans sameSecond.symm⟩
    have before : next.days = moment.days + 1 := days
    unfold Moment.seconds
    rw [before, sameHour, sameMinute, sameSecond, full]
    show (((moment.days + 1) * 24 + 0) * 60 + moment.minute) * 60 + moment.second = _
    omega
  · have more : moment.hour + 1 < 24 := by omega
    refine ⟨{ moment with hour := moment.hour + 1, hourLast := more }, ?_,
      ⟨date.day, date.month, date.year⟩, ?_, minute, second⟩
    · show ((moment.days * 24 + (moment.hour + 1)) * 60 + moment.minute) * 60 + moment.second = _
      unfold Moment.seconds
      omega
    · show (rtc.timeInt.hour + 1).toNat = moment.hour + 1
      rw [toNat_succ_of_lt below, hour]

/-- A full minute adds 60 seconds. -/
theorem nextMinute_shows {rtc : RTCInt} {moment : Moment} (shows : rtc.Shows moment) :
    ∃ next : Moment, next.seconds = moment.seconds + 60 ∧ rtc.nextMinute.Shows next := by
  obtain ⟨date, hour, minute, second⟩ := shows
  have inHour := moment.minuteLast
  have below : rtc.timeInt.minute.toNat < 4294967295 := by omega
  have carry : rtc.timeInt.minute + 1 = 60 ↔ moment.minute = 59 :=
    succ_eq_iff below minute rfl
  simp only [RTCInt.nextMinute, carry]
  split_ifs with full
  · have started : RTCInt.Shows { rtc with timeInt := { rtc.timeInt with minute := 0 } }
        { moment with minute := 0, minuteLast := by decide } :=
      ⟨⟨date.day, date.month, date.year⟩, hour, rfl, second⟩
    obtain ⟨next, passed, nextShown⟩ := nextHour_shows started
    refine ⟨next, ?_, nextShown⟩
    rw [passed]
    show ((moment.days * 24 + moment.hour) * 60 + 0) * 60 + moment.second + 3600 = _
    unfold Moment.seconds
    omega
  · have more : moment.minute + 1 < 60 := by omega
    refine ⟨{ moment with minute := moment.minute + 1, minuteLast := more }, ?_,
      ⟨date.day, date.month, date.year⟩, hour, ?_, second⟩
    · show ((moment.days * 24 + moment.hour) * 60 + (moment.minute + 1)) * 60 + moment.second = _
      unfold Moment.seconds
      omega
    · show (rtc.timeInt.minute + 1).toNat = moment.minute + 1
      rw [toNat_succ_of_lt below, minute]

/-- A full second adds one. -/
theorem nextSecond_shows {rtc : RTCInt} {moment : Moment} (shows : rtc.Shows moment) :
    ∃ next : Moment, next.seconds = moment.seconds + 1 ∧ rtc.nextSecond.Shows next := by
  obtain ⟨date, hour, minute, second⟩ := shows
  have inMinute := moment.secondLast
  have below : rtc.timeInt.second.toNat < 4294967295 := by omega
  have carry : rtc.timeInt.second + 1 = 60 ↔ moment.second = 59 :=
    succ_eq_iff below second rfl
  simp only [RTCInt.nextSecond, carry]
  split_ifs with full
  · have started : RTCInt.Shows { rtc with timeInt := { rtc.timeInt with second := 0 } }
        { moment with second := 0, secondLast := by decide } :=
      ⟨⟨date.day, date.month, date.year⟩, hour, minute, rfl⟩
    obtain ⟨next, passed, nextShown⟩ := nextMinute_shows started
    refine ⟨next, ?_, nextShown⟩
    rw [passed]
    show ((moment.days * 24 + moment.hour) * 60 + moment.minute) * 60 + 0 + 60 = _
    unfold Moment.seconds
    omega
  · have more : moment.second + 1 < 60 := by omega
    refine ⟨{ moment with second := moment.second + 1, secondLast := more }, ?_,
      ⟨date.day, date.month, date.year⟩, hour, minute, ?_⟩
    · show ((moment.days * 24 + moment.hour) * 60 + moment.minute) * 60 + (moment.second + 1) = _
      unfold Moment.seconds
      omega
    · show (rtc.timeInt.second + 1).toNat = moment.second + 1
      rw [toNat_succ_of_lt below, second]

theorem nextSecond_count (rtc : RTCInt) : rtc.nextSecond.count = rtc.count := by
  unfold RTCInt.nextSecond RTCInt.nextMinute RTCInt.nextHour
  split_ifs <;> rfl

/-! ### Ticks -/

/-- The clock is as many ticks behind the first moment of the calendar. -/
def RTCInt.ShowsTick (rtc : RTCInt) (ticks : Nat) : Prop :=
  ∃ moment : Moment, rtc.Shows moment ∧ moment.seconds = ticks / 8 ∧ rtc.count.toNat = ticks % 8

/-- **A tick.** -/
theorem tick_showsTick {rtc : RTCInt} {ticks : Nat} (shows : rtc.ShowsTick ticks) :
    rtc.tick.ShowsTick (ticks + 1) := by
  obtain ⟨moment, shown, seconds, count⟩ := shows
  have successor : (rtc.count + 1).toNat = rtc.count.toNat + 1 := by
    rw [UInt8.toNat_add, UInt8.toNat_one]
    omega
  have carry : rtc.count + 1 = 8 ↔ ticks % 8 = 7 := by
    rw [← UInt8.toNat_inj, successor, count]
    exact Nat.add_right_cancel_iff
  unfold RTCInt.tick
  simp only [carry]
  split_ifs with full
  · have same : RTCInt.Shows { rtc with count := 0 } moment :=
      ⟨shown.date, shown.hour, shown.minute, shown.second⟩
    obtain ⟨next, passed, nextShown⟩ := nextSecond_shows same
    refine ⟨next, nextShown, by omega, ?_⟩
    rw [nextSecond_count]
    show 0 = _
    omega
  · refine ⟨moment, ⟨shown.date, shown.hour, shown.minute, shown.second⟩, by omega, ?_⟩
    show (rtc.count + 1).toNat = _
    omega

/-- The compare half of the handler leaves the clock alone. -/
theorem alarm_tick_clock (rtc : AlarmClock) : rtc.tick.clock = rtc.clock.tick := by
  unfold AlarmClock.tick AlarmClock.compare
  dsimp only
  split_ifs <;> rfl

/-- A run of ticks. -/
theorem ticks_showsTick {rtc : AlarmClock} {before : Nat} (shows : rtc.clock.ShowsTick before)
    (ticks : Nat) : (AlarmClock.tick^[ticks] rtc).clock.ShowsTick (before + ticks) := by
  induction ticks with
  | zero => exact shows
  | succ ticks ih =>
    rw [Function.iterate_succ_apply', alarm_tick_clock]
    exact tick_showsTick ih

/-- **The clock keeps time.** From a valid date and time and a count below 8, any number of ticks, with
the alarms they bring, leaves the clock at the one moment that many seconds later, and the rest of the
ticks in the count. -/
theorem clock_keeps_time {rtc : AlarmClock} (valid : rtc.clock.Valid)
    (below : rtc.clock.count.toNat < 8) (ticks : Nat) :
    ∃ after : Moment,
      (∀ moment : Moment, moment.seconds = (rtc.clock.moment valid).seconds +
        (rtc.clock.count.toNat + ticks) / 8 ↔ moment = after) ∧
      (AlarmClock.tick^[ticks] rtc).clock.Shows after ∧
      (AlarmClock.tick^[ticks] rtc).clock.count.toNat = (rtc.clock.count.toNat + ticks) % 8 := by
  obtain ⟨start, is_start⟩ : ∃ start, start = (rtc.clock.moment valid).seconds := ⟨_, rfl⟩
  have shown : rtc.clock.ShowsTick (8 * start + rtc.clock.count.toNat) :=
    ⟨rtc.clock.moment valid, moment_shown valid, by omega, by omega⟩
  obtain ⟨after, shows, seconds, count⟩ := ticks_showsTick shown ticks
  have later : after.seconds = start + (rtc.clock.count.toNat + ticks) / 8 := by omega
  rw [← is_start]
  refine ⟨after, fun moment => ⟨fun same => ?_, fun same => ?_⟩, shows, by omega⟩
  · exact Moment.eq_of_seconds (same.trans later.symm)
  · rw [same, later]

/-- The last second of a year, seven ticks after which the next one begins. -/
def newYearsEve : AlarmClock :=
  .begun
    { time := ⟨0, 0, 0, 0⟩
      date := ⟨1, 1, 0⟩
      timeInt := ⟨23, 59, 59, 0⟩
      dateInt := ⟨31, 12, 2016⟩
      timeMode := true
      count := 1 } true

/-- New year. -/
theorem clock_keeps_time_newYear : ∃ after : Moment,
    (∀ moment : Moment, moment.seconds =
      (newYearsEve.clock.moment (by decide)).seconds + (1 + 7) / 8 ↔ moment = after) ∧
    (AlarmClock.tick^[7] newYearsEve).clock.Shows after ∧
    (AlarmClock.tick^[7] newYearsEve).clock.count.toNat = (1 + 7) % 8 :=
  @clock_keeps_time newYearsEve (by decide) (by decide) 7

example : (AlarmClock.tick^[7] newYearsEve).clock.dateInt = ⟨1, 1, 2017⟩ := by decide

end PrimoCore.Rtc
