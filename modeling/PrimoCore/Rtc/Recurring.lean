/-
**Alarms that come again.**

The compare interrupt programs the delay it finds in the record, and only then computes the one for the next
time. In the modes that match a date it corrects the delay for the length of the month, or of the year.

* `Firing.next` — from one event to the next, after the delay that the first has programmed.
* `recurring_iff` — **an alarm comes again at each match exactly when** it matches the time alone, and no call
  of `setAlarm` before has left a correction behind. A correction comes one event too late, or never ends.
-/

import PrimoCore.Rtc.DateMatches
import PrimoCore.Rtc.DayDifference

namespace PrimoCore.Rtc

open PrimoCore.Lib

namespace AlarmClock

/-! ### The events of an alarm -/

/-- A compare event: the seconds since `setAlarm`, and the object it comes upon. -/
structure Firing where
  passed : Nat
  rtc : AlarmClock

/-- The delay that the event programs. -/
def Firing.delay (firing : Firing) : Nat := firing.rtc.alarm.secToNextInt.toNat

/-- **The next event**, after that delay. -/
def Firing.next (firing : Firing) : Firing where
  passed := firing.passed + firing.delay
  rtc := { firing.rtc.compare with clock := firing.rtc.compare.clockAfter firing.delay }

/-- The event with a number, where the first comes some seconds after `setAlarm`. -/
def firing (rtc : AlarmClock) (first index : Nat) : Firing :=
  Firing.next^[index] ⟨first, { rtc.setAlarm with clock := rtc.setAlarm.clockAfter first }⟩

/-- A target of a mode that matches again and again: a time of day, and a day that every month has. -/
def RecurringTarget (rtc : AlarmClock) : Prop :=
  rtc.targetTime.Valid ∧
    match rtc.alarmMode with
    | .sec | .mmss | .hhmmss => True
    | .ddhhmmss => 1 ≤ rtc.clock.date.day ∧ rtc.clock.date.day ≤ 28
    | .mmddhhmmss => (1 ≤ rtc.clock.date.month ∧ rtc.clock.date.month ≤ 12) ∧
        1 ≤ rtc.clock.date.day ∧ rtc.clock.date.day ≤ 28
    | _ => False

/-- **The alarm comes again at each match**: its events enumerate the matches. -/
def ComesAgain (rtc : AlarmClock) (first : Nat) : Prop :=
  Enumerates (fun seconds => 0 < seconds ∧ rtc.MatchesAfter seconds) fun index => (rtc.firing first index).passed

/-- Neither correction is in use: the handler never takes the length of a month, nor of a leap year. -/
def Uncorrected (rtc : AlarmClock) : Prop :=
  rtc.alarm.addMonth = false ∧ (rtc.alarm.addDay = 0 ∨ 5 < rtc.alarm.addDay)

instance (rtc : AlarmClock) : Decidable rtc.Uncorrected := inferInstanceAs (Decidable (_ ∧ _))

/-! ### What an event does to the record -/

/-- The compare half of the handler leaves the clock alone. -/
theorem compare_clock (rtc : AlarmClock) : rtc.compare.clock = rtc.clock := by
  unfold compare
  dsimp only
  split_ifs <;> rfl

/-- **What an event does to the delay and to the corrections.** -/
theorem compare_alarm (rtc : AlarmClock) :
    rtc.compare.alarm.addMonth = rtc.alarm.addMonth ∧
    rtc.compare.alarm.addDay =
      (if rtc.alarm.addDay = 0 then 0 else if rtc.alarm.addDay = 5 then 1 else rtc.alarm.addDay + 1) ∧
    rtc.compare.alarm.secToNextInt =
      if rtc.alarm.addMonth then
        (rdnOf rtc.clock.dateInt.year (rtc.clock.dateInt.month + 1) rtc.clock.dateInt.day -
          rdnOf rtc.clock.dateInt.year rtc.clock.dateInt.month rtc.clock.dateInt.day) * 24 * 60 * 60
      else if rtc.alarm.addDay = 5 then 366 * 24 * 60 * 60 else rtc.alarm.secToNextInt := by
  unfold compare
  by_cases month : rtc.alarm.addMonth = true <;> by_cases day : rtc.alarm.addDay = 0 <;>
    by_cases leap : rtc.alarm.addDay = 5 <;> by_cases polled : rtc.alarm.type = alarmPolled <;>
    simp_all

variable {rtc : AlarmClock} {first : Nat}

/-! ### From one match to the next -/

/-- The object some seconds later, with the same target. -/
def later (rtc : AlarmClock) (seconds : Nat) : AlarmClock := { rtc with clock := rtc.clockAfter seconds }

/-- The target stands in fields that the clock does not change. -/
theorem clockAfter_target (rtc : AlarmClock) (seconds : Nat) :
    (rtc.clockAfter seconds).time = rtc.clock.time ∧ (rtc.clockAfter seconds).date = rtc.clock.date ∧
      (rtc.clockAfter seconds).timeMode = rtc.clock.timeMode := by
  induction seconds with
  | zero => exact ⟨rfl, rfl, rfl⟩
  | succ seconds ih =>
    rw [clockAfter, Function.iterate_succ_apply']
    change (rtc.clockAfter seconds).nextSecond.time = _ ∧ (rtc.clockAfter seconds).nextSecond.date = _ ∧
      (rtc.clockAfter seconds).nextSecond.timeMode = _
    unfold RTCInt.nextSecond RTCInt.nextMinute RTCInt.nextHour
    split_ifs <;> exact ih

theorem later_targetTime (rtc : AlarmClock) (seconds : Nat) : (rtc.later seconds).targetTime = rtc.targetTime := by
  obtain ⟨time, -, mode⟩ := clockAfter_target rtc seconds
  unfold targetTime RTCInt.afternoon later
  simp only [time, mode]
  split_ifs
  · rfl
  · exact time

theorem later_clockAfter (rtc : AlarmClock) (seconds delay : Nat) :
    (rtc.later seconds).clockAfter delay = rtc.clockAfter (seconds + delay) := by
  rw [Nat.add_comm]
  exact (Function.iterate_add_apply RTCInt.nextSecond delay seconds rtc.clock).symm

theorem later_valid (valid : rtc.clock.Valid) (seconds : Nat) : (rtc.later seconds).clock.Valid := by
  change (rtc.clockAfter seconds).Valid
  induction seconds with
  | zero => exact valid
  | succ seconds ih =>
    rw [clockAfter, Function.iterate_succ_apply']
    exact nextSecond_valid ih

/-- The matches some seconds later are those from now on. -/
theorem later_matchesAfter (rtc : AlarmClock) (seconds delay : Nat) :
    (rtc.later seconds).MatchesAfter delay ↔ rtc.MatchesAfter (seconds + delay) := by
  unfold MatchesAfter
  rw [later_targetTime, later_clockAfter]
  change AlarmMode.Matches rtc.alarmMode _ (rtc.clockAfter seconds).date _ ↔ _
  rw [(clockAfter_target rtc seconds).2.1]

theorem firing_succ (rtc : AlarmClock) (first index : Nat) :
    rtc.firing first (index + 1) = (rtc.firing first index).next :=
  Function.iterate_succ_apply' ..

theorem passed_succ (rtc : AlarmClock) (first index : Nat) : (rtc.firing first (index + 1)).passed =
    (rtc.firing first index).passed + (rtc.firing first index).delay := by
  rw [firing_succ]
  rfl

theorem ComesAgain.matches (again : rtc.ComesAgain first) (index : Nat) :
    rtc.MatchesAfter (rtc.firing first index).passed := (again index).1.2

/-- **An alarm comes again at each match exactly when** every delay leads to the first match from there. -/
theorem comesAgain_iff (least : IsLeast rtc.laterMatches first) : rtc.ComesAgain first ↔
    ∀ index, IsLeast (rtc.later (rtc.firing first index).passed).laterMatches (rtc.firing first index).delay := by
  refine enumerates_iff.trans ((and_iff_right least).trans (forall_congr' fun index => ?_))
  rw [passed_succ, isLeast_add_iff]
  unfold laterMatches
  simp only [later_matchesAfter]
  refine iff_of_eq (congrArg (IsLeast · _) (Set.ext fun delay => and_congr_right fun positive => ?_))
  exact and_iff_right (Nat.lt_of_lt_of_le positive (Nat.le_add_left ..))

/-! ### The delays -/

/-- The clock of an event is that of the object, some seconds after `setAlarm`. -/
theorem firing_clock (rtc : AlarmClock) (first index : Nat) :
    (rtc.firing first index).rtc.clock = rtc.setAlarm.clockAfter (rtc.firing first index).passed := by
  induction index with
  | zero => rfl
  | succ index ih =>
    rw [firing_succ]
    change RTCInt.nextSecond^[_] (rtc.firing first index).rtc.compare.clock = RTCInt.nextSecond^[_ + _] _
    rw [compare_clock, ih, Nat.add_comm, Function.iterate_add_apply]
    rfl

/-- `setAlarm` leaves the current time alone. -/
theorem setAlarm_valid (valid : rtc.clock.Valid) : rtc.setAlarm.clock.Valid := by
  have same : rtc.setAlarm.clock = rtc.select.clock := by
    unfold setAlarm
    split <;> rfl
  rw [same]
  unfold select
  cases rtc.alarmMode with
  | hhmmss =>
    change rtc.clock.afternoon.Valid
    unfold RTCInt.afternoon
    split_ifs <;> exact valid
  | _ => exact valid

theorem firing_valid (valid : rtc.clock.Valid) (first index : Nat) :
    (rtc.firing first index).rtc.clock.Valid := by
  rw [firing_clock]
  exact later_valid (setAlarm_valid valid) _

/-- **With the correction for the month**, an event computes the length of its own month. -/
theorem compare_addMonth (valid : rtc.clock.Valid) (corrected : rtc.alarm.addMonth = true) :
    ∃ days : Nat, rtc.compare.alarm.secToNextInt.toNat = days * 86400 ∧ 28 ≤ days ∧ days ≤ 31 ∧
      (rtc.clock.dateInt.month.toNat = 1 → days = 31) := by
  obtain ⟨low, high⟩ : 1 ≤ rtc.clock.dateInt.month.toNat ∧ rtc.clock.dateInt.month.toNat ≤ 12 :=
    valid.2.month_bounds
  have inside : rtc.clock.dateInt.day.toNat ≤ 31 := valid.2.dayLast.trans (monthDays_le ..)
  have length := @rdnOf_nextMonth rtc.clock.dateInt.year _ low high rtc.clock.dateInt.day (by omega)
  have step := leapDays_step (toInt rtc.clock.dateInt.year)
  have short := @monthDays_ge 1 _ low high
  have long := monthDays_le 1 rtc.clock.dateInt.month.toNat
  rw [(compare_alarm rtc).2.2, if_pos corrected, toNat_days]
  obtain ⟨days, is_days⟩ : ∃ days, days = (rdnOf rtc.clock.dateInt.year (rtc.clock.dateInt.month + 1)
    rtc.clock.dateInt.day - rdnOf rtc.clock.dateInt.year rtc.clock.dateInt.month
    rtc.clock.dateInt.day).toNat := ⟨_, rfl⟩
  rw [← is_days] at length ⊢
  have february : monthDays 1 2 = 28 := rfl
  have bounds : 28 ≤ days ∧ days ≤ 31 := by
    split_ifs at length with isFebruary
    · rw [isFebruary, february] at length
      omega
    · omega
  refine ⟨days, Nat.mod_eq_of_lt (by omega), bounds.1, bounds.2, fun january => ?_⟩
  rw [january] at length
  exact Int.natCast_inj.mp length

/-- **With the correction for the leap year**, each event counts a year, and the fifth one sets the delay to a leap
year. -/
theorem delay_of_addDay {index left : Nat} (uncorrected : (rtc.firing first index).rtc.alarm.addMonth = false)
    (count : (rtc.firing first index).rtc.alarm.addDay.toNat + left = 5)
    (positive : 1 ≤ (rtc.firing first index).rtc.alarm.addDay.toNat) :
    (rtc.firing first (index + left + 1)).rtc.alarm.addMonth = false ∧
      (rtc.firing first (index + left + 1)).rtc.alarm.secToNextInt = 366 * 24 * 60 * 60 := by
  induction left generalizing index with
  | zero =>
    have fifth : (rtc.firing first index).rtc.alarm.addDay = 5 := UInt32.toNat_inj.mp count
    rw [firing_succ]
    obtain ⟨month, -, delay⟩ := compare_alarm (rtc.firing first index).rtc
    rw [uncorrected, if_neg Bool.false_ne_true, if_pos fifth] at delay
    exact ⟨month.trans uncorrected, delay⟩
  | succ left ih =>
    obtain ⟨month, day, -⟩ := compare_alarm (rtc.firing first index).rtc
    have notZero : (rtc.firing first index).rtc.alarm.addDay ≠ 0 := by
      rw [ne_eq, ← UInt32.toNat_inj, UInt32.toNat_zero]
      omega
    have notFive : (rtc.firing first index).rtc.alarm.addDay ≠ 5 := by
      rw [ne_eq, ← UInt32.toNat_inj, show (5 : UInt32).toNat = 5 from rfl]
      omega
    rw [if_neg notZero, if_neg notFive] at day
    have next : (rtc.firing first (index + 1)).rtc.alarm.addDay.toNat =
        (rtc.firing first index).rtc.alarm.addDay.toNat + 1 := by
      rw [firing_succ, ← toNat_succ_of_lt (by omega), ← day]
      rfl
    have counted := @ih (index + 1) (by rw [firing_succ]; exact month.trans uncorrected) (by omega) (by omega)
    rwa [Nat.add_right_comm index 1 left] at counted

/-- The delay of a leap year stays. -/
theorem leapYear_stays {index : Nat} (uncorrected : (rtc.firing first index).rtc.alarm.addMonth = false)
    (leap : (rtc.firing first index).rtc.alarm.secToNextInt = 366 * 24 * 60 * 60) :
    (rtc.firing first (index + 1)).rtc.alarm.secToNextInt = 366 * 24 * 60 * 60 := by
  rw [firing_succ]
  refine (compare_alarm (rtc.firing first index).rtc).2.2.trans ?_
  rw [uncorrected, if_neg Bool.false_ne_true, leap, ite_self]

/-- **Without a correction** the delay stays. -/
theorem uncorrected_stays {index : Nat} (uncorrected : (rtc.firing first index).rtc.Uncorrected) :
    (rtc.firing first (index + 1)).rtc.Uncorrected ∧
      (rtc.firing first (index + 1)).rtc.alarm.secToNextInt =
        (rtc.firing first index).rtc.alarm.secToNextInt := by
  obtain ⟨month, day⟩ := uncorrected
  obtain ⟨monthNext, dayNext, delay⟩ := compare_alarm (rtc.firing first index).rtc
  have notFive : (rtc.firing first index).rtc.alarm.addDay ≠ 5 := by
    rintro five
    rw [five] at day
    exact absurd day (by decide)
  rw [month, if_neg Bool.false_ne_true, if_neg notFive] at delay
  rw [if_neg notFive] at dayNext
  rw [firing_succ]
  refine ⟨⟨monthNext.trans month, ?_⟩, delay⟩
  change (rtc.firing first index).rtc.compare.alarm.addDay = 0 ∨ 5 < (rtc.firing first index).rtc.compare.alarm.addDay
  rw [dayNext]
  by_cases zero : (rtc.firing first index).rtc.alarm.addDay = 0
  · rw [if_pos zero]
    exact .inl rfl
  · have many : 5 < (rtc.firing first index).rtc.alarm.addDay := day.resolve_left zero
    have size := (rtc.firing first index).rtc.alarm.addDay.toNat_lt
    rw [if_neg zero, UInt32.lt_iff_toNat_lt]
    rw [UInt32.lt_iff_toNat_lt] at many
    by_cases last : (rtc.firing first index).rtc.alarm.addDay.toNat = 4294967295
    · refine .inl (UInt32.toNat_inj.mp ?_)
      rw [UInt32.toNat_add, last]
      rfl
    · rw [toNat_succ_of_lt (by omega)]
      exact .inr (by omega)

/-! ### The modes that match the time alone -/

/-- What `setAlarm` leaves in the record, in these modes: the period, and the corrections as they were. -/
theorem setAlarm_time (timed : 0 < rtc.alarmMode.period) :
    rtc.setAlarm.alarm.secToNextInt.toNat = rtc.alarmMode.period ∧
      rtc.setAlarm.alarm.addMonth = rtc.alarm.addMonth ∧ rtc.setAlarm.alarm.addDay = rtc.alarm.addDay := by
  cases mode : rtc.alarmMode with
  | sec | mmss | hhmmss => simp [setAlarm, armed, select, selected, program, mode, AlarmMode.period]
  | _ => exact absurd timed (by rw [mode]; exact Nat.lt_irrefl 0)

/-- From a match to the next one it is a period. -/
theorem isLeast_period_iff (valid : rtc.clock.Valid) (target : rtc.targetTime.Valid)
    (timed : 0 < rtc.alarmMode.period) {seconds : Nat} (now : rtc.MatchesAfter seconds) (delay : Nat) :
    IsLeast (rtc.later seconds).laterMatches delay ↔ delay = rtc.alarmMode.period := by
  have validLater := later_valid valid seconds
  have targetLater : (rtc.later seconds).targetTime.Valid := (later_targetTime rtc seconds).symm ▸ target
  have here := (matchesAfter_iff validLater targetLater timed 0).mp ((later_matchesAfter rtc seconds 0).mpr now)
  rw [isLeast_laterMatches_iff validLater targetLater timed, ← here, Nat.add_zero]
  change 0 < delay ∧ delay ≤ rtc.alarmMode.period ∧
    ((rtc.later seconds).clock.timeInt.ofDay + delay) % rtc.alarmMode.period =
      (rtc.later seconds).clock.timeInt.ofDay % rtc.alarmMode.period ↔ _
  constructor
  · rintro ⟨positive, inside, same⟩
    have whole := Nat.sub_mod_eq_zero_of_mod_eq same
    rw [Nat.add_sub_cancel_left] at whole
    exact Nat.le_antisymm inside (Nat.le_of_dvd positive (Nat.dvd_of_mod_eq_zero whole))
  · rintro rfl
    exact ⟨timed, Nat.le_refl _, Nat.add_mod_right ..⟩

/-- **The alarm comes again at each match** exactly when every delay is a period. -/
theorem comesAgain_time_iff (valid : rtc.clock.Valid) (target : rtc.targetTime.Valid)
    (timed : 0 < rtc.alarmMode.period) (least : IsLeast rtc.laterMatches first) :
    rtc.ComesAgain first ↔ ∀ index, (rtc.firing first index).delay = rtc.alarmMode.period := by
  constructor
  · intro again index
    have next := (comesAgain_iff least).mp again index
    exact (isLeast_period_iff valid target timed (again.matches index) _).mp next
  · intro periods
    have matched : ∀ index, rtc.MatchesAfter (rtc.firing first index).passed := by
      intro index
      induction index with
      | zero => exact least.1.2
      | succ index ih =>
        have next := (isLeast_period_iff valid target timed ih _).mpr (periods index)
        rw [firing_succ]
        exact (later_matchesAfter ..).mp next.1.2
    exact (comesAgain_iff least).mpr fun index =>
      (isLeast_period_iff valid target timed (matched index) _).mpr (periods index)

/-- **Every delay is a period** exactly when no correction is in use. -/
theorem periods_iff (valid : rtc.clock.Valid) (timed : 0 < rtc.alarmMode.period) :
    (∀ index, (rtc.firing first index).delay = rtc.alarmMode.period) ↔ rtc.Uncorrected := by
  obtain ⟨delay, addMonth, addDay⟩ := setAlarm_time timed
  have short : rtc.alarmMode.period ≤ 86400 := by cases rtc.alarmMode <;> decide
  constructor
  · intro periods
    have month : rtc.alarm.addMonth = false := by
      by_contra corrected
      have started : (rtc.firing first 0).rtc.alarm.addMonth = true :=
        addMonth.trans (Bool.eq_true_of_not_eq_false corrected)
      obtain ⟨days, length, low, -⟩ := compare_addMonth (firing_valid valid first 0) started
      have next : days * 86400 = rtc.alarmMode.period := length.symm.trans (periods 1)
      omega
    refine ⟨month, ?_⟩
    by_contra corrected
    rw [not_or, ← UInt32.toNat_inj, UInt32.lt_iff_toNat_lt, UInt32.toNat_zero] at corrected
    change _ ∧ ¬ 5 < _ at corrected
    have started : (rtc.firing first 0).rtc.alarm.addDay.toNat = rtc.alarm.addDay.toNat :=
      congrArg UInt32.toNat addDay
    obtain ⟨-, leap⟩ := @delay_of_addDay rtc first 0 (5 - rtc.alarm.addDay.toNat) (addMonth.trans month)
      (by omega) (by omega)
    have next : (366 * 24 * 60 * 60 : UInt32).toNat = rtc.alarmMode.period :=
      (congrArg UInt32.toNat leap).symm.trans (periods _)
    have long : (366 * 24 * 60 * 60 : UInt32).toNat = 31622400 := rfl
    omega
  · intro uncorrected index
    have steady : (rtc.firing first index).rtc.Uncorrected ∧
        (rtc.firing first index).rtc.alarm.secToNextInt = rtc.setAlarm.alarm.secToNextInt := by
      induction index with
      | zero =>
        refine ⟨⟨addMonth.trans uncorrected.1, ?_⟩, rfl⟩
        change rtc.setAlarm.alarm.addDay = 0 ∨ 5 < rtc.setAlarm.alarm.addDay
        rw [addDay]
        exact uncorrected.2
      | succ index ih =>
        obtain ⟨still, same⟩ := uncorrected_stays ih.1
        exact ⟨still, same.trans ih.2⟩
    exact (congrArg UInt32.toNat steady.2).trans delay

/-! ### The modes that match a date -/

/-- The clock some days later shows the date that many days later. -/
theorem shows_days (valid : rtc.clock.Valid) (days : Nat) :
    ∃ later : Moment, later.days = (rtc.clock.moment valid).days + days ∧
      (rtc.clockAfter (days * 86400)).dateInt.Shows later := by
  obtain ⟨later, passed, shown, -⟩ := shows_after valid (days * 86400)
  have inDay := (rtc.clock.moment valid).ofDay_lt
  have laterInDay := later.ofDay_lt
  rw [later.seconds_eq, (rtc.clock.moment valid).seconds_eq] at passed
  exact ⟨later, by omega, shown⟩

/-- At a match, the time is that of the target, and the date one that the mode matches. -/
theorem later_matched (valid : rtc.clock.Valid) (target : rtc.TargetValid) {seconds : Nat}
    (now : rtc.MatchesAfter seconds) :
    (rtc.later seconds).TargetValid ∧
      (rtc.later seconds).targetTime.ofDay = (rtc.later seconds).clock.timeInt.ofDay ∧
      AlarmMode.DateMatches rtc.alarmMode rtc.clock.date
        ((rtc.later seconds).clock.moment (later_valid valid seconds)) := by
  have date : (rtc.later seconds).clock.date = rtc.clock.date := (clockAfter_target rtc seconds).2.1
  have mode : (rtc.later seconds).alarmMode = rtc.alarmMode := rfl
  have targetLater : (rtc.later seconds).TargetValid := by
    unfold TargetValid
    rw [later_targetTime, date, mode]
    exact target
  obtain ⟨moment, passed, time, matched⟩ := (matchesAfter_date_iff (later_valid valid seconds) targetLater 0).mp
    ((later_matchesAfter rtc seconds 0).mpr now)
  rw [Nat.add_zero] at passed
  rw [Moment.eq_of_seconds passed] at time matched
  rw [date, mode] at matched
  exact ⟨targetLater, time.symm, matched⟩

/-- **The next match**, at the next date that the mode matches. -/
theorem next_match (valid : rtc.clock.Valid) (target : rtc.TargetValid) {seconds days delay : Nat}
    (now : rtc.MatchesAfter seconds) (least : IsLeast (rtc.later seconds).laterMatches delay)
    (dates : IsLeast (rtc.later seconds).laterDates days) : delay = days * 86400 := by
  obtain ⟨targetLater, time, -⟩ := later_matched valid target now
  exact least.unique ((isLeast_wholeDays_iff (later_valid valid seconds) targetLater dates.1.1).mpr ⟨time, dates⟩)

/-- **The next month**: a day that every month has comes again after the length of the current one. -/
theorem next_day (valid : rtc.clock.Valid) (target : rtc.TargetValid) (mode : rtc.alarmMode = .ddhhmmss)
    (short : rtc.clock.date.day.toNat ≤ 28) {seconds delay : Nat} (now : rtc.MatchesAfter seconds)
    (least : IsLeast (rtc.later seconds).laterMatches delay) :
    delay = monthDays (rtc.clockAfter seconds).dateInt.year.toNat
        (rtc.clockAfter seconds).dateInt.month.toNat * 86400 ∧
      (rtc.clockAfter (seconds + delay)).dateInt.month.toNat =
        (following (rtc.clockAfter seconds).dateInt.year.toNat
          (rtc.clockAfter seconds).dateInt.month.toNat).2 := by
  obtain ⟨moment, is_moment⟩ : ∃ moment, moment =
    (rtc.later seconds).clock.moment (later_valid valid seconds) := ⟨_, rfl⟩
  have year : moment.year = (rtc.clockAfter seconds).dateInt.year.toNat := is_moment ▸ rfl
  have month : moment.month = (rtc.clockAfter seconds).dateInt.month.toNat := is_moment ▸ rfl
  obtain ⟨-, -, day⟩ := later_matched valid target now
  rw [mode, ← is_moment] at day
  change moment.day = _ at day
  obtain ⟨first, last⟩ := @following_bounds moment.year moment.month moment.month_bounds.2
  have long := @monthDays_ge (following moment.year moment.month).1 _ first last
  have positive := moment.dayFirst
  have dates : IsLeast (rtc.later seconds).laterDates (monthDays moment.year moment.month) := by
    have again := (@sameDay_iff moment (monthDays moment.year moment.month) (by omega) (by omega)).mpr
      ⟨rfl, (day ▸ short).trans (monthDays_ge first last)⟩
    unfold laterDates
    rw [show (rtc.later seconds).alarmMode = .ddhhmmss from mode,
      show (rtc.later seconds).clock.date = rtc.clock.date from (clockAfter_target rtc seconds).2.1]
    rw [day] at again
    subst is_moment
    exact again
  have whole := next_match valid target now least dates
  rw [year, month] at whole
  refine ⟨whole, ?_⟩
  obtain ⟨later, passed, shown⟩ := shows_days (later_valid valid seconds) (monthDays moment.year moment.month)
  rw [later_clockAfter, year, month, ← whole] at shown
  rw [← is_moment] at passed
  obtain ⟨-, inMonth, -⟩ := (Moment.day_after passed).2 (by omega) (by omega)
  rw [shown.month, inMonth, year, month]

/-- **The next year**: a date that every year has comes again after the length of a year. -/
theorem next_date (valid : rtc.clock.Valid) (target : rtc.TargetValid) (mode : rtc.alarmMode = .mmddhhmmss)
    (short : rtc.clock.date.day.toNat ≤ 28) {seconds delay : Nat} (now : rtc.MatchesAfter seconds)
    (least : IsLeast (rtc.later seconds).laterMatches delay) :
    delay = yearDays (if rtc.clock.date.month.toNat < 3 then (rtc.clockAfter seconds).dateInt.year.toNat
        else (rtc.clockAfter seconds).dateInt.year.toNat + 1) * 86400 ∧
      (rtc.clockAfter (seconds + delay)).dateInt.year.toNat % 4 =
        ((rtc.clockAfter seconds).dateInt.year.toNat + 1) % 4 := by
  obtain ⟨moment, is_moment⟩ : ∃ moment, moment =
    (rtc.later seconds).clock.moment (later_valid valid seconds) := ⟨_, rfl⟩
  have year : moment.year = (rtc.clockAfter seconds).dateInt.year.toNat := is_moment ▸ rfl
  obtain ⟨-, -, date⟩ := later_matched valid target now
  rw [mode, ← is_moment] at date
  obtain ⟨month, day⟩ : moment.month = _ ∧ moment.day = _ := date
  obtain ⟨length, is_length⟩ : ∃ length, length =
    yearDays (if moment.month < 3 then moment.year else moment.year + 1) := ⟨_, rfl⟩
  have near : 365 ≤ length ∧ length ≤ 366 := by
    rw [is_length, yearDays]
    split_ifs <;> omega
  have dates : IsLeast (rtc.later seconds).laterDates length := by
    have again := (@sameDate_iff moment length (by omega) (by omega)).mpr ⟨is_length, by omega⟩
    unfold laterDates
    rw [show (rtc.later seconds).alarmMode = .mmddhhmmss from mode,
      show (rtc.later seconds).clock.date = rtc.clock.date from (clockAfter_target rtc seconds).2.1]
    rw [month, day] at again
    subst is_moment
    exact again
  have whole := next_match valid target now least dates
  rw [← year, ← month, ← is_length]
  refine ⟨whole, ?_⟩
  obtain ⟨later, passed, shown⟩ := shows_days (later_valid valid seconds) length
  rw [later_clockAfter, ← whole] at shown
  rw [← is_moment] at passed
  have there : later.days = dayOf (moment.year + 1) moment.month moment.day := by
    rw [dayOf_nextYear moment.dayFirst, ← is_length]
    exact passed
  obtain ⟨first, last⟩ := moment.month_bounds
  have long := @monthDays_ge (moment.year + 1) _ first last
  obtain ⟨nextYear, -, -⟩ := Moment.date_eq moment.dayFirst (by omega) there
  rw [shown.year, nextYear]
  omega

/-- An alarm on a day of the month keeps the correction for the month. -/
theorem firing_addMonth (corrected : rtc.setAlarm.alarm.addMonth = true) (index : Nat) :
    (rtc.firing first index).rtc.alarm.addMonth = true := by
  induction index with
  | zero => exact corrected
  | succ index ih =>
    rw [firing_succ]
    exact (compare_alarm _).1.trans ih

/-- `setAlarm` does not change the clock in the modes that match a date. -/
theorem setAlarm_clock (dated : rtc.alarmMode = .ddhhmmss ∨ rtc.alarmMode = .mmddhhmmss) :
    rtc.setAlarm.clock = rtc.clock := by
  rcases dated with mode | mode <;> simp [setAlarm, armed, select, selected, program, mode]

/-- **A day of the month** does not come again at each match: in February the delay is still that of January. -/
theorem not_comesAgain_day (valid : rtc.clock.Valid) (target : rtc.TargetValid)
    (mode : rtc.alarmMode = .ddhhmmss) (short : rtc.clock.date.day.toNat ≤ 28)
    (least : IsLeast rtc.laterMatches first) : ¬ rtc.ComesAgain first := by
  intro again
  have corrected : rtc.setAlarm.alarm.addMonth = true := by
    simp [setAlarm, armed, select, selected, program, mode]
  have step := fun index =>
    next_day valid target mode short (again.matches index) ((comesAgain_iff least).mp again index)
  obtain ⟨month, is_month⟩ : ∃ month : Nat → Nat, month = fun index =>
      (rtc.clockAfter (rtc.firing first index).passed).dateInt.month.toNat := ⟨_, rfl⟩
  have monthNext : ∀ index, month (index + 1) = if month index = 12 then 1 else month index + 1 := by
    intro index
    rw [is_month]
    dsimp only
    rw [passed_succ, (step index).2]
    unfold following
    split_ifs <;> rfl
  -- Within a year the alarm comes in January.
  have january : ∃ index, month index = 1 := by
    have bounds : 1 ≤ month 0 ∧ month 0 ≤ 12 := by
      rw [is_month]
      exact (later_valid valid _).2.month_bounds
    have ahead : ∀ months, month 0 + months ≤ 12 → month months = month 0 + months := by
      intro months
      induction months with
      | zero => exact fun _ => rfl
      | succ months ih =>
        intro inYear
        rw [monthNext, ih (by omega), if_neg (by omega), Nat.add_assoc]
    refine ⟨12 - month 0 + 1, ?_⟩
    rw [monthNext, ahead _ (by omega), if_pos (by omega)]
  obtain ⟨index, january⟩ := january
  have february : month (index + 1) = 2 := by
    rw [monthNext, january]
    rfl
  obtain ⟨days, length, -, -, long⟩ :=
    compare_addMonth (firing_valid valid first index) (firing_addMonth corrected index)
  have inJanuary : (rtc.firing first index).rtc.clock.dateInt.month.toNat = 1 := by
    rw [firing_clock, clockAfter, setAlarm_clock (.inl mode)]
    rw [is_month] at january
    exact january
  have delay : (rtc.firing first (index + 1)).delay = days * 86400 := by
    rw [firing_succ]
    exact length
  have right := (step (index + 1)).1
  rw [is_month] at february
  dsimp only at february
  have atMost : monthDays (rtc.clockAfter (rtc.firing first (index + 1)).passed).dateInt.year.toNat 2 ≤ 29 :=
    monthDays_le_leap _ 2
  rw [february, delay, long inJanuary] at right
  omega

/-- What `setAlarm` leaves in the record for a date of the year: the correction for the leap year counts the years
since the last one. -/
theorem setAlarm_addDay (mode : rtc.alarmMode = .mmddhhmmss) :
    rtc.setAlarm.alarm.addMonth = rtc.alarm.addMonth ∧ 1 ≤ rtc.setAlarm.alarm.addDay.toNat ∧
      rtc.setAlarm.alarm.addDay.toNat ≤ 5 := by
  have few : (rtc.clock.dateInt.year % 4).toNat < 4 := by
    rw [UInt32.toNat_mod]
    exact Nat.mod_lt _ (by decide)
  have next : (rtc.clock.dateInt.year % 4 + 1).toNat = (rtc.clock.dateInt.year % 4).toNat + 1 :=
    toNat_succ_of_lt (by omega)
  simp only [setAlarm, armed, select, selected, program, mode]
  split_ifs <;> simp <;> omega

/-- **A date of the year** does not come again at each match: the delay of a leap year stays. -/
theorem not_comesAgain_date (valid : rtc.clock.Valid) (target : rtc.TargetValid)
    (mode : rtc.alarmMode = .mmddhhmmss) (short : rtc.clock.date.day.toNat ≤ 28)
    (least : IsLeast rtc.laterMatches first) : ¬ rtc.ComesAgain first := by
  intro again
  have step := fun index =>
    next_date valid target mode short (again.matches index) ((comesAgain_iff least).mp again index)
  obtain ⟨addMonth, some_years, few⟩ := setAlarm_addDay mode
  cases corrected : rtc.alarm.addMonth with
  | true =>
    obtain ⟨days, length, -, short, -⟩ :=
      compare_addMonth (firing_valid valid first 0) (addMonth.trans corrected)
    have delay : (rtc.firing first 1).delay = days * 86400 := length
    have year := (step 1).1
    rw [delay] at year
    unfold yearDays at year
    split_ifs at year <;> omega
  | false =>
    obtain ⟨uncorrected, leap⟩ := @delay_of_addDay rtc first 0 (5 - rtc.setAlarm.alarm.addDay.toNat)
      (addMonth.trans corrected) (Nat.add_sub_cancel' few) some_years
    obtain ⟨index, is_index⟩ : ∃ index, index = 0 + (5 - rtc.setAlarm.alarm.addDay.toNat) + 1 := ⟨_, rfl⟩
    rw [← is_index] at uncorrected leap
    have next := leapYear_stays uncorrected leap
    have long : (366 * 24 * 60 * 60 : UInt32).toNat = 366 * 86400 := rfl
    -- Two leap years would follow each other.
    obtain ⟨year, yearNext⟩ := step index
    obtain ⟨again, -⟩ := step (index + 1)
    rw [Firing.delay, leap, long] at year
    rw [Firing.delay, next, long] at again
    rw [← passed_succ] at yearNext
    unfold yearDays at year again
    split_ifs at year again <;> omega

/-! ### All modes -/

/-- A target that comes again is one of its mode. -/
theorem RecurringTarget.valid (target : rtc.RecurringTarget)
    (dated : rtc.alarmMode = .ddhhmmss ∨ rtc.alarmMode = .mmddhhmmss) :
    rtc.TargetValid ∧ rtc.clock.date.day.toNat ≤ 28 := by
  obtain ⟨time, date⟩ := target
  unfold TargetValid
  rcases dated with mode | mode
  · rw [mode] at date ⊢
    exact ⟨⟨time, date.1, UInt32.le_trans date.2 (by decide)⟩, UInt32.le_iff_toNat_le.mp date.2⟩
  · rw [mode] at date ⊢
    obtain ⟨⟨low, high⟩, positive, short⟩ := date
    have limit := (dayLimit_bounds low high 0).1
    refine ⟨⟨time, low, high, positive, ?_⟩, UInt32.le_iff_toNat_le.mp short⟩
    change rtc.clock.date.day ≤ daysInMonth rtc.clock.date.month 0
    unfold daysInMonth
    grind

/-- **Alarms that come again**: from the first match on, the events of an alarm are its matches exactly when it
matches the time alone, and no correction is in use. -/
theorem recurring_iff (valid : rtc.clock.Valid) (target : rtc.RecurringTarget)
    (least : IsLeast rtc.laterMatches first) :
    rtc.ComesAgain first ↔ 0 < rtc.alarmMode.period ∧ rtc.Uncorrected := by
  by_cases timed : 0 < rtc.alarmMode.period
  · rw [and_iff_right timed, comesAgain_time_iff valid target.1 timed least, periods_iff valid timed]
  · refine iff_of_false ?_ fun right => timed right.1
    have date := target.2
    cases mode : rtc.alarmMode with
    | ddhhmmss =>
      obtain ⟨dated, short⟩ := target.valid (.inl mode)
      exact not_comesAgain_day valid dated mode short least
    | mmddhhmmss =>
      obtain ⟨dated, short⟩ := target.valid (.inr mode)
      exact not_comesAgain_date valid dated mode short least
    | sec | mmss | hhmmss => exact absurd (by rw [mode]; decide) timed
    | off | yymmddhhmmss | other =>
      rw [mode] at date
      exact date.elim

/-- Ten seconds before a full minute, which is to come again. -/
def fullMinute : AlarmClock := toMatch .sec ⟨8, 59, 50, 0⟩ ⟨1, 1, 2016⟩ ⟨9, 0, 0, 0⟩ ⟨1, 1, 2016⟩

theorem recurring_iff_minute : fullMinute.ComesAgain 10 :=
  (@recurring_iff fullMinute 10 (by decide) ⟨by decide, trivial⟩
    ((isLeast_laterMatches_iff (by decide) (by decide) (by decide) 10).mpr (by decide))).mpr
    ⟨by decide, by decide⟩

/-- The day before the 16th of January, at the time of the target. -/
def sixteenth : AlarmClock := toMatch .ddhhmmss ⟨9, 0, 0, 0⟩ ⟨15, 1, 2016⟩ ⟨9, 0, 0, 0⟩ ⟨16, 1, 2016⟩

/-- **The 16th of each month**: the event of 16 January is followed by one 29 days later. -/
theorem sixteenth_not_enumerated : ¬ ∀ (rtc : AlarmClock) (first : Nat), rtc.clock.Valid →
    rtc.RecurringTarget → IsLeast rtc.laterMatches first → rtc.ComesAgain first := by
  intro always
  have valid : sixteenth.clock.Valid := by decide
  have day : 1 ≤ sixteenth.clock.date.day ∧ sixteenth.clock.date.day ≤ 28 := by decide
  have target : sixteenth.RecurringTarget := ⟨by decide, day⟩
  have dated : sixteenth.TargetValid := by decide
  have dates : IsLeast sixteenth.laterDates (16 - 15) :=
    (@dayAhead_iff (sixteenth.clock.moment valid) 16 (show 15 < 16 by decide) (by decide)).mpr
      (show 16 ≤ monthDays 2016 1 by decide)
  have least := (isLeast_wholeDays_iff valid dated (by decide)).mpr ⟨rfl, dates⟩
  exact not_comesAgain_day valid dated rfl (by decide) least (always sixteenth _ valid target least)

end AlarmClock

end PrimoCore.Rtc
