/-
**When an alarm is to come.**

A mode of `enableAlarm` names the fields of the clock that are to match the target. The clock matches at
some of the seconds that are to come; the alarm belongs at the first of them.

* `AlarmMode.Matches` — the documented meaning of the modes; `MatchesAfter` — the clock matches that many
  seconds from now.
* `shows_after` — what the clock shows after some seconds.
* `TimeForeseen` — the target does not lie where the switch goes wrong.
* `timeForeseen_iff` — **in the modes that match the time alone, `setAlarm` sets the delay to the first match
  exactly when** the target is foreseen.
-/

import PrimoCore.Lib.Recurrence
import PrimoCore.Rtc.Timekeeping

namespace PrimoCore.Rtc

open PrimoCore.Lib

/-! ### Matches -/

/-- **The fields a mode names are those of the target.** -/
def AlarmMode.Matches (mode : AlarmMode) (time : Time) (date : Date) (clock : RTCInt) : Prop :=
  match mode with
  | .off | .other => False
  | .sec => clock.timeInt.second = time.second
  | .mmss => clock.timeInt.minute = time.minute ∧ clock.timeInt.second = time.second
  | .hhmmss => clock.timeInt.hour = time.hour ∧ clock.timeInt.minute = time.minute ∧
      clock.timeInt.second = time.second
  | .ddhhmmss => clock.dateInt.day = date.day ∧ clock.timeInt.hour = time.hour ∧
      clock.timeInt.minute = time.minute ∧ clock.timeInt.second = time.second
  | .mmddhhmmss => clock.dateInt.month = date.month ∧ clock.dateInt.day = date.day ∧
      clock.timeInt.hour = time.hour ∧ clock.timeInt.minute = time.minute ∧
      clock.timeInt.second = time.second
  | .yymmddhhmmss => clock.dateInt = date ∧ clock.timeInt.hour = time.hour ∧
      clock.timeInt.minute = time.minute ∧ clock.timeInt.second = time.second

instance (mode : AlarmMode) (time : Time) (date : Date) (clock : RTCInt) :
    Decidable (mode.Matches time date clock) :=
  match mode with
  | .off | .other => inferInstanceAs (Decidable False)
  | .sec => inferInstanceAs (Decidable (_ = _))
  | .mmss | .hhmmss | .ddhhmmss | .mmddhhmmss | .yymmddhhmmss => inferInstanceAs (Decidable (_ ∧ _))

namespace AlarmClock

/-- The clock that many seconds from now. -/
def clockAfter (rtc : AlarmClock) (seconds : Nat) : RTCInt := RTCInt.nextSecond^[seconds] rtc.clock

/-- The target time: in 12-hour mode, after noon, its hour is twelve hours later. -/
def targetTime (rtc : AlarmClock) : Time := rtc.clock.afternoon.time

/-- The clock matches the target that many seconds from now. -/
def MatchesAfter (rtc : AlarmClock) (seconds : Nat) : Prop :=
  rtc.alarmMode.Matches rtc.targetTime rtc.clock.date (rtc.clockAfter seconds)

instance (rtc : AlarmClock) (seconds : Nat) : Decidable (rtc.MatchesAfter seconds) :=
  inferInstanceAs (Decidable (AlarmMode.Matches ..))

/-- **The clock after some seconds** shows the moment that lies that much later. -/
theorem shows_after {rtc : AlarmClock} (valid : rtc.clock.Valid) (seconds : Nat) :
    ∃ moment : Moment, moment.seconds = (rtc.clock.moment valid).seconds + seconds ∧
      (rtc.clockAfter seconds).Shows moment := by
  induction seconds with
  | zero => exact ⟨rtc.clock.moment valid, rfl, moment_shown valid⟩
  | succ seconds ih =>
    obtain ⟨moment, passed, shown⟩ := ih
    obtain ⟨next, later, nextShown⟩ := nextSecond_shows shown
    refine ⟨next, by omega, ?_⟩
    rw [clockAfter, Function.iterate_succ_apply']
    exact nextShown

end AlarmClock

/-- The second of the day. -/
def Time.ofDay (time : Time) : Nat := (time.hour.toNat * 60 + time.minute.toNat) * 60 + time.second.toNat

theorem Time.Valid.bounds {time : Time} (valid : time.Valid) :
    time.hour.toNat < 24 ∧ time.minute.toNat < 60 ∧ time.second.toNat < 60 :=
  ⟨Nat.lt_succ_of_le (UInt32.le_iff_toNat_le.mp valid.1),
    Nat.lt_succ_of_le (UInt32.le_iff_toNat_le.mp valid.2.1),
    Nat.lt_succ_of_le (UInt32.le_iff_toNat_le.mp valid.2.2)⟩

namespace AlarmClock

variable {rtc : AlarmClock}

/-- **The time after some seconds.** -/
theorem time_after (valid : rtc.clock.Valid) (seconds : Nat) :
    (rtc.clockAfter seconds).timeInt.second.toNat = (rtc.clock.timeInt.ofDay + seconds) % 60 ∧
      (rtc.clockAfter seconds).timeInt.minute.toNat = (rtc.clock.timeInt.ofDay + seconds) / 60 % 60 ∧
      (rtc.clockAfter seconds).timeInt.hour.toNat = (rtc.clock.timeInt.ofDay + seconds) / 3600 % 24 := by
  obtain ⟨moment, passed, -, hour, minute, second⟩ := shows_after valid seconds
  obtain ⟨hours, minutes, rest⟩ := valid.1.bounds
  have inDay := moment.hourLast
  have inHour := moment.minuteLast
  have inMinute := moment.secondLast
  have start : (rtc.clock.moment valid).seconds =
      (rtc.clock.moment valid).days * 86400 + rtc.clock.timeInt.ofDay := by
    change (((rtc.clock.moment valid).days * 24 + rtc.clock.timeInt.hour.toNat) * 60 +
      rtc.clock.timeInt.minute.toNat) * 60 + rtc.clock.timeInt.second.toNat = _
    unfold Time.ofDay
    omega
  rw [start, Moment.seconds] at passed
  rw [hour, minute, second]
  omega

/-- The seconds that are to come at which the clock matches. -/
def laterMatches (rtc : AlarmClock) : Set Nat := {seconds | 0 < seconds ∧ rtc.MatchesAfter seconds}

end AlarmClock

/-- The seconds after which a time of day matches again, in the modes that match the time alone. -/
def AlarmMode.period : AlarmMode → Nat
  | .sec => 60
  | .mmss => 3600
  | .hhmmss => 86400
  | _ => 0

namespace AlarmClock

variable {rtc : AlarmClock}

/-- The clock matches at one residue of the period. -/
theorem matchesAfter_iff (valid : rtc.clock.Valid) (target : rtc.targetTime.Valid)
    (timed : 0 < rtc.alarmMode.period) (seconds : Nat) : rtc.MatchesAfter seconds ↔
      (rtc.clock.timeInt.ofDay + seconds) % rtc.alarmMode.period =
        rtc.targetTime.ofDay % rtc.alarmMode.period := by
  obtain ⟨second, minute, hour⟩ := time_after valid seconds
  obtain ⟨hours, minutes, rest⟩ := target.bounds
  unfold MatchesAfter AlarmMode.Matches
  rw [show rtc.targetTime.ofDay = (rtc.targetTime.hour.toNat * 60 + rtc.targetTime.minute.toNat) * 60 +
    rtc.targetTime.second.toNat from rfl]
  cases mode : rtc.alarmMode with
  | sec =>
    simp only [AlarmMode.period, ← UInt32.toNat_inj, second]
    omega
  | mmss =>
    simp only [AlarmMode.period, ← UInt32.toNat_inj, second, minute]
    omega
  | hhmmss =>
    simp only [AlarmMode.period, ← UInt32.toNat_inj, second, minute, hour]
    omega
  | _ => exact absurd timed (by rw [mode]; exact Nat.lt_irrefl 0)

theorem isLeast_laterMatches_iff (valid : rtc.clock.Valid) (target : rtc.targetTime.Valid)
    (timed : 0 < rtc.alarmMode.period) (delay : Nat) : IsLeast rtc.laterMatches delay ↔
      0 < delay ∧ delay ≤ rtc.alarmMode.period ∧
        (rtc.clock.timeInt.ofDay + delay) % rtc.alarmMode.period =
          rtc.targetTime.ofDay % rtc.alarmMode.period := by
  unfold laterMatches
  simp only [matchesAfter_iff valid target timed]
  rw [isLeast_residue_iff (Nat.mod_lt _ timed), Nat.zero_add]

end AlarmClock

/-! ### The cases of the time -/

namespace RTCInt

variable {clock : RTCInt} {sec : UInt32}

/-- **What the case `SEC` adds**; with nothing from the cases before, a second that lies before the current
one is taken for one of the next minute. -/
theorem selectSeconds_toNat (target : clock.time.second.toNat < 60) (now : clock.timeInt.second.toNat < 60)
    (whole : sec = 0 ∨ 60 ≤ sec.toNat) (small : sec.toNat < 2 ^ 31) : (clock.selectSeconds sec).toNat =
      if clock.time.second.toNat < clock.timeInt.second.toNat then
        if sec.toNat = 0 then 60 - clock.timeInt.second.toNat + clock.time.second.toNat
        else sec.toNat - (clock.timeInt.second.toNat - clock.time.second.toNat)
      else sec.toNat + (clock.time.second.toNat - clock.timeInt.second.toNat) := by
  rw [← UInt32.toNat_inj, UInt32.toNat_zero] at whole
  simp only [selectSeconds, UInt32.lt_iff_toNat_lt, ne_eq, ← UInt32.toNat_inj, UInt32.toNat_zero]
  split_ifs <;> simp only [UInt32.toNat_add, UInt32.toNat_sub, UInt32.toNat_ofNat] <;> omega

/-- **What the case `MMSS` adds**; with nothing from the case before, a minute that lies before the current
one is taken for one of the next hour. -/
theorem selectMinutes_toNat (target : clock.time.minute.toNat < 60) (now : clock.timeInt.minute.toNat < 60)
    (whole : sec = 0 ∨ 3600 ≤ sec.toNat) (small : sec.toNat < 2 ^ 31) : (clock.selectMinutes sec).toNat =
      if clock.time.minute.toNat < clock.timeInt.minute.toNat then
        if sec.toNat = 0 then (60 - clock.timeInt.minute.toNat + clock.time.minute.toNat) * 60
        else sec.toNat - (clock.timeInt.minute.toNat - clock.time.minute.toNat) * 60
      else sec.toNat + (clock.time.minute.toNat - clock.timeInt.minute.toNat) * 60 := by
  rw [← UInt32.toNat_inj, UInt32.toNat_zero] at whole
  simp only [selectMinutes, UInt32.lt_iff_toNat_lt, ne_eq, ← UInt32.toNat_inj, UInt32.toNat_zero]
  split_ifs <;>
    simp only [UInt32.toNat_add, UInt32.toNat_sub, UInt32.toNat_mul, UInt32.toNat_ofNat] <;> omega

/-- The second of the hour. -/
theorem selectRest_toNat (targetMinutes : clock.time.minute.toNat < 60)
    (targetSeconds : clock.time.second.toNat < 60) (minutes : clock.timeInt.minute.toNat < 60)
    (seconds : clock.timeInt.second.toNat < 60) (whole : sec = 0 ∨ 3600 ≤ sec.toNat)
    (small : sec.toNat < 2 ^ 30) : (clock.selectSeconds (clock.selectMinutes sec)).toNat =
      if sec.toNat ≠ 0 then sec.toNat + (clock.time.minute.toNat * 60 + clock.time.second.toNat) -
        (clock.timeInt.minute.toNat * 60 + clock.timeInt.second.toNat)
      else if clock.time.minute.toNat = clock.timeInt.minute.toNat ∧
          clock.time.second.toNat < clock.timeInt.second.toNat then
        60 - clock.timeInt.second.toNat + clock.time.second.toNat
      else if clock.time.minute.toNat < clock.timeInt.minute.toNat then
        3600 + (clock.time.minute.toNat * 60 + clock.time.second.toNat) -
          (clock.timeInt.minute.toNat * 60 + clock.timeInt.second.toNat)
      else clock.time.minute.toNat * 60 + clock.time.second.toNat -
        (clock.timeInt.minute.toNat * 60 + clock.timeInt.second.toNat) := by
  have hourly := selectMinutes_toNat targetMinutes minutes whole (by omega)
  rw [← UInt32.toNat_inj, UInt32.toNat_zero] at whole
  obtain ⟨before, is_before⟩ : ∃ before, before = clock.selectMinutes sec := ⟨_, rfl⟩
  rw [← is_before] at hourly ⊢
  have bounds : (before = 0 ∨ 60 ≤ before.toNat) ∧ before.toNat < 2 ^ 31 := by
    rw [← UInt32.toNat_inj, UInt32.toNat_zero]
    split_ifs at hourly <;> omega
  rw [selectSeconds_toNat targetSeconds seconds bounds.1 bounds.2]
  clear bounds is_before
  -- The seconds are taken off what the minutes have left; only where that is nothing do they go wrong.
  rcases Nat.eq_zero_or_pos sec.toNat with none | hours
  · rw [none, if_pos rfl] at hourly
    rw [if_neg (not_not_intro none)]
    rcases Nat.lt_trichotomy clock.time.minute.toNat clock.timeInt.minute.toNat with earlier | same | later
    · rw [if_pos earlier] at hourly
      have left : ¬ before.toNat = 0 := by omega
      simp only [Nat.ne_of_lt earlier, false_and, if_false, if_pos earlier, if_neg left]
      split_ifs <;> omega
    · rw [same, if_neg (Nat.lt_irrefl _), Nat.sub_self] at hourly
      have nothing : before.toNat = 0 := by omega
      simp only [same, true_and, if_pos nothing, if_neg (Nat.lt_irrefl _)]
      split_ifs <;> omega
    · rw [if_neg (Nat.lt_asymm later)] at hourly
      have left : ¬ before.toNat = 0 := by omega
      simp only [Nat.ne_of_gt later, false_and, if_false, if_neg (Nat.lt_asymm later), if_neg left]
      split_ifs <;> omega
  · have least : 3600 ≤ sec.toNat := whole.resolve_left (Nat.ne_of_gt hours)
    rw [if_neg (Nat.ne_of_gt hours)] at hourly
    rw [if_pos (Nat.ne_of_gt hours)]
    have left : ¬ before.toNat = 0 := by split_ifs at hourly <;> omega
    rw [if_neg left]
    split_ifs at hourly ⊢ <;> omega

/-- **What the case `HHMMSS` starts with.** In front of the current hour it adds the second of the target. -/
theorem selectHours_toNat (hours : clock.time.hour.toNat < 24) (seconds : clock.time.second.toNat < 60)
    (now : clock.timeInt.hour.toNat < 24) : clock.selectHours.toNat =
      if clock.time.hour.toNat < clock.timeInt.hour.toNat then
        (24 - clock.timeInt.hour.toNat + clock.time.second.toNat) * 3600
      else (clock.time.hour.toNat - clock.timeInt.hour.toNat) * 3600 := by
  simp only [selectHours, UInt32.lt_iff_toNat_lt]
  split_ifs <;>
    simp only [UInt32.toNat_add, UInt32.toNat_sub, UInt32.toNat_mul, UInt32.toNat_ofNat] <;> omega

end RTCInt

namespace AlarmClock

variable {rtc : AlarmClock}

/-- **The time of the target does not lie where the switch goes wrong**: in the hour, or in the day, in front
of the current time, which it takes for the next minute or hour; or in the day after, as its first hour
counts the second of the target. -/
def TimeForeseen (rtc : AlarmClock) : Prop :=
  let now := rtc.clock.timeInt
  let target := rtc.targetTime
  match rtc.alarmMode with
  | .sec => True
  | .mmss => ¬ (target.minute = now.minute ∧ target.second < now.second)
  | .hhmmss => (target.hour < now.hour → target.second = target.hour) ∧
      (target.hour = now.hour →
        ¬ (target.minute < now.minute ∨ target.minute = now.minute ∧ target.second < now.second))
  | _ => False

instance (rtc : AlarmClock) : Decidable rtc.TimeForeseen := by
  unfold TimeForeseen
  split <;> infer_instance

/-- The delay in the modes that match the time alone: a whole period stands for none. -/
theorem seconds_time (timed : 0 < rtc.alarmMode.period) : rtc.setAlarm.alarm.seconds =
    if rtc.select.sec = 0 then UInt32.ofNat rtc.alarmMode.period else rtc.select.sec := by
  cases mode : rtc.alarmMode with
  | sec | mmss | hhmmss => simp [setAlarm, armed, seconds, program, select, mode, AlarmMode.period]
  | _ => exact absurd timed (by rw [mode]; exact Nat.lt_irrefl 0)

theorem targetTime_minute (rtc : AlarmClock) : rtc.targetTime.minute = rtc.clock.time.minute := by
  unfold targetTime RTCInt.afternoon
  split_ifs <;> rfl

theorem targetTime_second (rtc : AlarmClock) : rtc.targetTime.second = rtc.clock.time.second := by
  unfold targetTime RTCInt.afternoon
  split_ifs <;> rfl

theorem afternoon_timeInt (clock : RTCInt) : clock.afternoon.timeInt = clock.timeInt := by
  unfold RTCInt.afternoon
  split_ifs <;> rfl

/-- **The time alarms**: `setAlarm` sets the delay to the first match, within a period, exactly when the time
of the target is foreseen. -/
theorem timeForeseen_iff (valid : rtc.clock.Valid) (target : rtc.targetTime.Valid)
    (timed : 0 < rtc.alarmMode.period) :
    (IsLeast rtc.laterMatches rtc.setAlarm.alarm.seconds.toNat ∧
      1 ≤ rtc.setAlarm.alarm.seconds.toNat ∧
      rtc.setAlarm.alarm.seconds.toNat ≤ rtc.alarmMode.period) ↔ rtc.TimeForeseen := by
  rw [isLeast_laterMatches_iff valid target timed, seconds_time timed]
  obtain ⟨hours, minutes, rest⟩ := valid.1.bounds
  obtain ⟨targetHours, targetMinutes, targetRest⟩ := target.bounds
  obtain ⟨sec, is_sec⟩ : ∃ sec, sec = rtc.select.sec.toNat := ⟨_, rfl⟩
  have delay : (if rtc.select.sec = 0 then UInt32.ofNat rtc.alarmMode.period else rtc.select.sec).toNat =
      if sec = 0 then rtc.alarmMode.period else sec := by
    have zero : rtc.select.sec = 0 ↔ sec = 0 := by rw [is_sec, ← UInt32.toNat_inj, UInt32.toNat_zero]
    simp only [zero]
    split_ifs
    · exact UInt32.toNat_ofNat_of_lt' (by cases rtc.alarmMode <;> decide)
    · exact is_sec.symm
  rw [delay]
  unfold TimeForeseen Time.ofDay
  cases mode : rtc.alarmMode with
  | sec =>
    simp only [select, mode] at is_sec
    rw [targetTime_second] at targetRest
    rw [RTCInt.selectSeconds_toNat targetRest rest (.inl rfl) (by decide), UInt32.toNat_zero, if_pos rfl,
      Nat.zero_add] at is_sec
    simp only [AlarmMode.period, targetTime_second, iff_true]
    split_ifs at is_sec ⊢ <;> omega
  | mmss =>
    simp only [select, mode] at is_sec
    rw [targetTime_minute] at targetMinutes
    rw [targetTime_second] at targetRest
    rw [RTCInt.selectRest_toNat targetMinutes targetRest minutes rest (.inl rfl) (by decide),
      if_neg (not_not_intro UInt32.toNat_zero)] at is_sec
    simp only [AlarmMode.period, targetTime_second, targetTime_minute, UInt32.lt_iff_toNat_lt,
      ← UInt32.toNat_inj]
    split_ifs at is_sec ⊢ <;> omega
  | hhmmss =>
    simp only [select, mode] at is_sec
    obtain ⟨clock, is_clock⟩ : ∃ clock, clock = rtc.clock.afternoon := ⟨_, rfl⟩
    have time : rtc.targetTime = clock.time := is_clock ▸ rfl
    have now : clock.timeInt = rtc.clock.timeInt := is_clock ▸ afternoon_timeInt _
    rw [← is_clock] at is_sec
    rw [time] at targetHours targetMinutes targetRest ⊢
    rw [← now] at hours minutes rest ⊢
    have daily := RTCInt.selectHours_toNat targetHours targetRest hours
    have whole : clock.selectHours = 0 ∨ 3600 ≤ clock.selectHours.toNat := by
      rw [← UInt32.toNat_inj, UInt32.toNat_zero]
      split_ifs at daily <;> omega
    rw [RTCInt.selectRest_toNat targetMinutes targetRest minutes rest whole
      (by split_ifs at daily <;> omega)] at is_sec
    simp only [AlarmMode.period, UInt32.lt_iff_toNat_lt, ← UInt32.toNat_inj]
    rcases Nat.lt_trichotomy clock.time.hour.toNat clock.timeInt.hour.toNat with before | same | after
    · rw [if_pos before] at daily
      rw [if_pos (by omega)] at is_sec
      rw [if_neg (by omega)]
      omega
    · rw [if_neg (by omega), same, Nat.sub_self] at daily
      rw [if_neg (by omega)] at is_sec
      split_ifs at is_sec ⊢ <;> omega
    · rw [if_neg (by omega)] at daily
      rw [if_pos (by omega)] at is_sec
      rw [if_neg (by omega)]
      omega
  | _ => exact absurd timed (by rw [mode]; exact Nat.lt_irrefl 0)

/-- An object in 24-hour mode, at a date and a time, with a target. -/
def toMatch (mode : AlarmMode) (now : Time) (today : Date) (time : Time) (date : Date) : AlarmClock :=
  { begun ⟨time, date, now, today, true, 0⟩ true with alarmMode := mode }

/-- From ten seconds before nine to ten seconds after. -/
theorem timeForeseen_iff_nine :
    IsLeast (toMatch .hhmmss ⟨8, 59, 50, 0⟩ ⟨1, 1, 2016⟩ ⟨9, 0, 10, 0⟩ ⟨1, 1, 2016⟩).laterMatches 20 ∧
      1 ≤ 20 ∧ 20 ≤ 86400 :=
  (@timeForeseen_iff (toMatch .hhmmss ⟨8, 59, 50, 0⟩ ⟨1, 1, 2016⟩ ⟨9, 0, 10, 0⟩ ⟨1, 1, 2016⟩) (by decide)
    (by decide) (by decide)).mpr (by decide)

/-- **A second that has passed in this minute** is waited for in the next one, where the minute does not
match. -/
theorem minute_passed : ¬ ∀ rtc : AlarmClock, rtc.clock.timeMode = true → rtc.clock.Valid →
    rtc.targetTime.Valid → 0 < rtc.alarmMode.period →
    IsLeast rtc.laterMatches rtc.setAlarm.alarm.seconds.toNat := by
  intro always
  have least := always (toMatch .mmss ⟨8, 0, 59, 0⟩ ⟨1, 1, 2016⟩ ⟨8, 0, 0, 0⟩ ⟨1, 1, 2016⟩) (by decide)
    (by decide) (by decide) (by decide)
  exact absurd least.1.2 (by decide)

end AlarmClock

end PrimoCore.Rtc
