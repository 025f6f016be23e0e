/-
**Alarms on the compare register of RTC2.**

`setAlarm` computes the seconds to the alarm and programs the compare register with eight times as
many, counted from zero; the compare interrupt clears the counter and programs the delay of the next
alarm. Counter and register have 24 bits, and a compare event comes when the counter reaches the
register.

* `AlarmClock.setAlarm`, `AlarmClock.tick` — the code: the switch over the modes, the programming of the
  register, and both halves of `RTC2_IRQHandler`.
* `Schedule` — a run, with the number of ticks after which the next event is to come.
* `onTime_fires` — a schedule that is on time: the event comes exactly then.
* `alarms_on_time_iff` — **every alarm of a run is on time exactly when** every call that arms one finds
  the counter at zero, and every delay programmed is positive and fits the counter.

A call of the program or of the callback, and the interrupt, are one step each.
-/

import Mathlib.Tactic.SplitIfs
import PrimoCore.Lib.Counter
import PrimoCore.Lib.Run
import PrimoCore.Rtc.Clock

namespace PrimoCore.Rtc

open PrimoCore.Lib

/-- `ALARM`. -/
structure Alarm where
  active : Bool
  type : UInt32
  addDay : UInt32
  addMonth : Bool
  secToNextInt : UInt32
  seconds : UInt32
  set : Bool

/-- The modes of `enableAlarm`; `other` is a value that is none of them. -/
inductive AlarmMode where
  | off
  | sec
  | mmss
  | hhmmss
  | ddhhmmss
  | mmddhhmmss
  | yymmddhhmmss
  | other
  deriving DecidableEq

/-- `ALARM_POLLED`. -/
def alarmPolled : UInt32 := 0

/-- The registers of RTC2: `COUNTER`, `CC[0]` and the compare bit of `INTENSET`. -/
structure Rtc2 where
  counter : BitVec 24
  cc : BitVec 24
  compareInt : Bool

/-- The object with its alarm, `_callback` (whether it is not `NULL`, and how often it has been called)
and RTC2. -/
structure AlarmClock where
  clock : RTCInt
  alarmMode : AlarmMode
  alarm : Alarm
  callback : Bool
  calls : Nat
  rtc2 : Rtc2

/-! ### `setAlarm` -/

/-- `rdn`, the day number of a date. The divisions of C++ round toward zero. -/
def rdn (y m d : Int) : UInt32 :=
  let (y, m) := if m < 3 then (y - 1, m + 12) else (y, m)
  .ofInt (365 * y + y.tdiv 4 - y.tdiv 100 + y.tdiv 400 + (153 * m - 457).tdiv 5 + d - 306)

/-- An `unsigned int` passed as an `int`. -/
def toInt (value : UInt32) : Int := value.toInt32.toInt

/-- `rdn` of unsigned arguments. -/
def rdnOf (year month day : UInt32) : UInt32 := rdn (toInt year) (toInt month) (toInt day)

/-- What the `switch` leaves: the object, `sec`, `days` and `noAlarm`. -/
structure Selection where
  clock : RTCInt
  alarm : Alarm
  sec : UInt32
  days : UInt32
  noAlarm : Bool

namespace RTCInt

/-- The hours of the case `HHMMSS`. -/
def selectHours (clock : RTCInt) : UInt32 :=
  if clock.time.hour < clock.timeInt.hour then
    (24 - clock.timeInt.hour + clock.time.second) * 60 * 60
  else (clock.time.hour - clock.timeInt.hour) * 60 * 60

/-- The case `MMSS`, on what the one before has left in `sec`. -/
def selectMinutes (clock : RTCInt) (sec : UInt32) : UInt32 :=
  if clock.time.minute < clock.timeInt.minute then
    let moreTime := (60 - clock.timeInt.minute + clock.time.minute) * 60
    if sec ≠ 0 then sec - (3600 - moreTime) else moreTime
  else
    let moreTime := (clock.time.minute - clock.timeInt.minute) * 60
    if sec ≠ 0 then sec + moreTime else moreTime

/-- The case `SEC`, on what the ones before have left in `sec`. -/
def selectSeconds (clock : RTCInt) (sec : UInt32) : UInt32 :=
  if clock.time.second < clock.timeInt.second then
    let moreTime := 60 - clock.timeInt.second + clock.time.second
    if sec ≠ 0 then sec - (60 - moreTime) else moreTime
  else
    let moreTime := clock.time.second - clock.timeInt.second
    if sec ≠ 0 then sec + moreTime else moreTime

/-- `time.hour += 12`, in 12-hour mode after noon. -/
def afternoon (clock : RTCInt) : RTCInt :=
  if clock.timeMode = false ∧ clock.time.tmode = 1 then
    { clock with time := { clock.time with hour := clock.time.hour + 12 } }
  else clock

end RTCInt

namespace AlarmClock

/-- The `switch` of `setAlarm`. The cases `HHMMSS` and `MMSS` fall through. -/
def select (rtc : AlarmClock) : Selection :=
  let clock := rtc.clock
  let date := clock.date
  let dateInt := clock.dateInt
  match rtc.alarmMode with
  | .off | .other => ⟨clock, rtc.alarm, 0, 0, false⟩
  | .yymmddhhmmss =>
      let days := rdnOf date.year date.month date.day - rdnOf dateInt.year dateInt.month dateInt.day
      ⟨clock, { rtc.alarm with secToNextInt := -1 }, 0, days, decide (days = 0)⟩
  | .mmddhhmmss =>
      let sameYear := rdnOf 0 date.month date.day - rdnOf 0 dateInt.month dateInt.day
      let days :=
        if sameYear = 0 then
          rdnOf (dateInt.year + 1) date.month date.day - rdnOf dateInt.year dateInt.month dateInt.day
        else sameYear
      let alarm :=
        if dateInt.year % 4 = 0 then { rtc.alarm with secToNextInt := 366 * 24 * 60 * 60, addDay := 1 }
        else { rtc.alarm with secToNextInt := 365 * 24 * 60 * 60, addDay := dateInt.year % 4 + 1 }
      ⟨clock, alarm, 0, days, false⟩
  | .ddhhmmss =>
      let sameMonth := rdnOf dateInt.year dateInt.month date.day -
        rdnOf dateInt.year dateInt.month dateInt.day
      let days :=
        if sameMonth = 0 then
          rdnOf dateInt.year (dateInt.month + 1) date.day - rdnOf dateInt.year dateInt.month dateInt.day
        else sameMonth
      let secToNextInt := (rdnOf dateInt.year (dateInt.month + 2) date.day -
        rdnOf dateInt.year (dateInt.month + 1) date.day) * 24 * 60 * 60
      ⟨clock, { rtc.alarm with secToNextInt := secToNextInt, addMonth := true }, 0, days, false⟩
  | .hhmmss =>
      let clock := clock.afternoon
      ⟨clock, { rtc.alarm with secToNextInt := 24 * 60 * 60 },
        clock.selectSeconds (clock.selectMinutes clock.selectHours), 0, false⟩
  | .mmss =>
      ⟨clock, { rtc.alarm with secToNextInt := 60 * 60 }, clock.selectSeconds (clock.selectMinutes 0),
        0, false⟩
  | .sec => ⟨clock, { rtc.alarm with secToNextInt := 60 }, clock.selectSeconds 0, 0, false⟩

/-- What `setAlarm` makes of `sec` before it programs it. -/
def seconds (mode : AlarmMode) (selection : Selection) : UInt32 :=
  let sec := selection.sec + selection.days * 24 * 60 * 60
  if sec = 0 ∧ mode = .hhmmss then 24 * 60 * 60
  else if sec = 0 ∧ mode = .mmss then 60 * 60
  else if sec = 0 ∧ mode = .sec then 60
  else sec

/-- The delay a call of `setAlarm` programs, if it programs one. -/
def armed (rtc : AlarmClock) : Option UInt32 :=
  if rtc.select.noAlarm then none else some (seconds rtc.alarmMode rtc.select)

/-- The object after the `switch`. -/
def selected (rtc : AlarmClock) : AlarmClock :=
  { rtc with clock := rtc.select.clock, alarm := rtc.select.alarm }

/-- Programs the compare register: `sec * 8`, of which the register keeps 24 bits. -/
def program (rtc : AlarmClock) (sec : UInt32) : AlarmClock :=
  { rtc with
    alarm := { rtc.alarm with seconds := sec, active := true }
    rtc2 := { rtc.rtc2 with cc := .ofNat 24 (sec * 8).toNat, compareInt := true } }

def setAlarm (rtc : AlarmClock) : AlarmClock :=
  match rtc.armed with
  | none => rtc.selected
  | some sec => rtc.selected.program sec

def enableAlarm (rtc : AlarmClock) (mode : AlarmMode) (type : UInt32) (callback : Bool) : AlarmClock :=
  { rtc with alarmMode := mode, alarm := { rtc.alarm with type := type }, callback := callback }

def alarmClearFlag (rtc : AlarmClock) : AlarmClock := { rtc with alarm := { rtc.alarm with set := false } }

/-! ### The interrupt -/

/-- The compare half of `RTC2_IRQHandler`. -/
def compare (rtc : AlarmClock) : AlarmClock :=
  let dateInt := rtc.clock.dateInt
  let rtc2 : Rtc2 :=
    { rtc.rtc2 with counter := 0#24, cc := .ofNat 24 (rtc.alarm.secToNextInt * 8).toNat }
  let alarm :=
    if rtc.alarm.addDay ≠ 0 then
      if rtc.alarm.addDay = 5 then { rtc.alarm with secToNextInt := 366 * 24 * 60 * 60, addDay := 1 }
      else { rtc.alarm with addDay := rtc.alarm.addDay + 1 }
    else rtc.alarm
  let alarm :=
    if alarm.addMonth then
      { alarm with
        secToNextInt := (rdnOf dateInt.year (dateInt.month + 1) dateInt.day -
          rdnOf dateInt.year dateInt.month dateInt.day) * 24 * 60 * 60 }
    else alarm
  let alarm := { alarm with seconds := alarm.secToNextInt }
  if alarm.type = alarmPolled then { rtc with alarm := { alarm with set := true }, rtc2 := rtc2 }
  else { rtc with alarm := alarm, rtc2 := rtc2, calls := if rtc.callback then rtc.calls + 1 else rtc.calls }

/-- The next tick brings a compare event. -/
def Fires (rtc : AlarmClock) : Prop :=
  rtc.rtc2.compareInt = true ∧ rtc.rtc2.counter + 1#24 = rtc.rtc2.cc

instance (rtc : AlarmClock) : Decidable rtc.Fires := inferInstanceAs (Decidable (_ ∧ _))

/-- `COUNTER` advances, and the interrupt is served: first the tick, then the compare event, if the
counter has reached the register. -/
def tick (rtc : AlarmClock) : AlarmClock :=
  let ticked := { rtc with
    clock := rtc.clock.tick, rtc2 := { rtc.rtc2 with counter := rtc.rtc2.counter + 1#24 } }
  if rtc.Fires then ticked.compare else ticked

/-- A fresh object after `begin`: the counter starts, and no compare event is enabled. -/
def begun (clock : RTCInt) (timeRep : Bool) : AlarmClock where
  clock := { clock with timeMode := timeRep }
  alarmMode := .off
  alarm := ⟨false, 0, 0, false, 0, 0, false⟩
  callback := false
  calls := 0
  rtc2 := ⟨0#24, 0#24, false⟩

end AlarmClock

/-! ### Schedules -/

/-- What can happen: a call that only concerns the clock or a tick, or a call for alarms. -/
inductive AlarmInput where
  | clock (input : Input)
  | enableAlarm (mode : AlarmMode) (type : UInt32) (callback : Bool)
  | setAlarm
  | alarmClearFlag

/-- An object in a run, with the number of ticks after which the next compare event is to come. -/
structure Schedule where
  rtc : AlarmClock
  due : Option Nat

namespace Schedule

def step (schedule : Schedule) : AlarmInput → Schedule
  | .clock .tick =>
      { rtc := schedule.rtc.tick
        due :=
          if schedule.rtc.Fires then some (8 * schedule.rtc.alarm.secToNextInt.toNat)
          else schedule.due.map (· - 1) }
  | .clock input => { schedule with rtc := { schedule.rtc with clock := schedule.rtc.clock.step input } }
  | .enableAlarm mode type callback =>
      { schedule with rtc := schedule.rtc.enableAlarm mode type callback }
  | .setAlarm =>
      { rtc := schedule.rtc.setAlarm
        due := (schedule.rtc.armed.map fun sec => 8 * sec.toNat).or schedule.due }
  | .alarmClearFlag => { schedule with rtc := schedule.rtc.alarmClearFlag }

/-- Compare events are enabled exactly when one is due, and the counter reaches the register when it
is. -/
def OnTime (schedule : Schedule) : Prop :=
  schedule.rtc.rtc2.compareInt = schedule.due.isSome ∧
    ∀ ticks ∈ schedule.due, FirstReached schedule.rtc.rtc2.counter schedule.rtc.rtc2.cc ticks

/-- A delay whose ticks fit the counter: at most 2097152 seconds, some 24 days. -/
def Fits (seconds : UInt32) : Prop := 0 < 8 * seconds.toNat ∧ 8 * seconds.toNat ≤ 16777216

/-- The condition on a step: a call that arms an alarm finds the counter at zero, and what is programmed
fits. -/
def KeepsTime (schedule : Schedule) : AlarmInput → Prop
  | .clock .tick => schedule.rtc.Fires → Fits schedule.rtc.alarm.secToNextInt
  | .setAlarm => ∀ sec ∈ schedule.rtc.armed, schedule.rtc.rtc2.counter = 0#24 ∧ Fits sec
  | _ => True

end Schedule

/-! ### One step -/

namespace AlarmClock

/-- The register keeps 24 bits of the product, whose own wrap does not matter. -/
theorem register_eq (sec : UInt32) :
    BitVec.ofNat 24 (sec * 8).toNat = BitVec.ofNat 24 (8 * sec.toNat) := by
  apply BitVec.eq_of_toNat_eq
  rw [BitVec.toNat_ofNat, BitVec.toNat_ofNat, UInt32.toNat_mul]
  show sec.toNat * 8 % 4294967296 % 16777216 = 8 * sec.toNat % 16777216
  omega

/-- What the compare interrupt leaves in RTC2: a cleared counter, and the delay it has found. -/
theorem compare_rtc2 (rtc : AlarmClock) : rtc.compare.rtc2 =
    ⟨0#24, .ofNat 24 (8 * rtc.alarm.secToNextInt.toNat), rtc.rtc2.compareInt⟩ := by
  rw [← register_eq]
  unfold compare
  dsimp only
  split_ifs <;> rfl

theorem tick_rtc2_of_fires {rtc : AlarmClock} (fires : rtc.Fires) : rtc.tick.rtc2 =
    ⟨0#24, .ofNat 24 (8 * rtc.alarm.secToNextInt.toNat), rtc.rtc2.compareInt⟩ := by
  unfold tick
  rw [if_pos fires]
  exact compare_rtc2 _

theorem tick_rtc2_of_not_fires {rtc : AlarmClock} (quiet : ¬ rtc.Fires) :
    rtc.tick.rtc2 = { rtc.rtc2 with counter := rtc.rtc2.counter + 1#24 } := by
  unfold tick
  rw [if_neg quiet]

end AlarmClock

namespace Schedule

/-- A delay counted from zero is met exactly when it fits. -/
theorem firstReached_register_iff (counter : BitVec 24) (sec : UInt32) :
    FirstReached counter (BitVec.ofNat 24 (8 * sec.toNat)) (8 * sec.toNat) ↔
      counter = 0#24 ∧ Fits sec :=
  firstReached_ofNat_iff

/-- In a schedule that is on time, the next tick brings an event exactly when one tick is left. -/
theorem fires_iff {schedule : Schedule} (onTime : schedule.OnTime) :
    schedule.rtc.Fires ↔ schedule.due = some 1 := by
  obtain ⟨enabled, first⟩ := onTime
  unfold AlarmClock.Fires
  rw [enabled]
  cases due : schedule.due with
  | none => simp
  | some ticks =>
    rw [(first ticks due).now_iff]
    simp

theorem onTime_tick_iff (schedule : Schedule) (onTime : schedule.OnTime) :
    (schedule.step (.clock .tick)).OnTime ↔ schedule.KeepsTime (.clock .tick) := by
  obtain ⟨enabled, first⟩ := onTime
  by_cases fires : schedule.rtc.Fires
  · have next : schedule.step (.clock .tick) =
        ⟨schedule.rtc.tick, some (8 * schedule.rtc.alarm.secToNextInt.toNat)⟩ := by
      show Schedule.mk _ (ite _ _ _) = _
      rw [if_pos fires]
    have now : schedule.KeepsTime (.clock .tick) ↔ Fits schedule.rtc.alarm.secToNextInt :=
      ⟨fun keeps => keeps fires, fun fits _ => fits⟩
    rw [next, now, OnTime, AlarmClock.tick_rtc2_of_fires fires]
    constructor
    · rintro ⟨_, reached⟩
      exact ((firstReached_register_iff _ _).mp (reached _ rfl)).2
    · intro fits
      refine ⟨fires.1, fun ticks due => ?_⟩
      obtain rfl := Option.some.inj due
      exact (firstReached_register_iff _ _).mpr ⟨rfl, fits⟩
  · have next : schedule.step (.clock .tick) = ⟨schedule.rtc.tick, schedule.due.map (· - 1)⟩ := by
      show Schedule.mk _ (ite _ _ _) = _
      rw [if_neg fires]
    refine iff_of_true ?_ fun now => absurd now fires
    rw [next, OnTime, AlarmClock.tick_rtc2_of_not_fires fires, Option.isSome_map]
    refine ⟨enabled, fun left due => ?_⟩
    obtain ⟨ticks, before, rfl⟩ := Option.map_eq_some_iff.mp due
    refine (first ticks before).next fun reached => fires ⟨?_, reached⟩
    rw [enabled, before]
    rfl

theorem onTime_setAlarm_iff (schedule : Schedule) (onTime : schedule.OnTime) :
    (schedule.step .setAlarm).OnTime ↔ schedule.KeepsTime .setAlarm := by
  show (Schedule.mk schedule.rtc.setAlarm _).OnTime ↔ ∀ sec ∈ schedule.rtc.armed, _
  unfold AlarmClock.setAlarm
  cases armed : schedule.rtc.armed with
  | none => exact iff_of_true onTime fun sec none => by cases none
  | some sec =>
    show (true = true ∧ ∀ ticks ∈ some (8 * sec.toNat), FirstReached schedule.rtc.rtc2.counter
      (BitVec.ofNat 24 (sec * 8).toNat) ticks) ↔ _
    rw [AlarmClock.register_eq]
    constructor
    · rintro ⟨_, reached⟩ other same
      obtain rfl := Option.some.inj same
      exact (firstReached_register_iff _ _).mp (reached _ rfl)
    · intro keeps
      refine ⟨rfl, fun ticks due => ?_⟩
      obtain rfl := Option.some.inj due
      exact (firstReached_register_iff _ _).mpr (keeps sec rfl)

/-- **One step** leaves a schedule on time exactly when it meets `KeepsTime`. -/
theorem onTime_step_iff (schedule : Schedule) (input : AlarmInput) (onTime : schedule.OnTime) :
    (schedule.step input).OnTime ↔ schedule.KeepsTime input := by
  cases input with
  | clock input =>
    cases input with
    | tick => exact onTime_tick_iff schedule onTime
    | _ => exact iff_of_true onTime trivial
  | setAlarm => exact onTime_setAlarm_iff schedule onTime
  | enableAlarm mode type callback => exact iff_of_true onTime trivial
  | alarmClearFlag => exact iff_of_true onTime trivial

end Schedule

/-! ### Runs -/

/-- **A schedule that is on time keeps its word**: after as many ticks as are left before the last one,
the next one brings the event, and no tick before does. -/
theorem onTime_fires {schedule : Schedule} (onTime : schedule.OnTime) {before : Nat}
    (due : schedule.due = some (before + 1)) :
    (run Schedule.step schedule (List.replicate before (.clock .tick))).rtc.Fires ∧
      ∀ earlier < before,
        ¬ (run Schedule.step schedule (List.replicate earlier (.clock .tick))).rtc.Fires := by
  induction before generalizing schedule with
  | zero => exact ⟨(Schedule.fires_iff onTime).mpr due, fun _ below => absurd below (Nat.not_lt_zero _)⟩
  | succ before ih =>
    have quiet : ¬ schedule.rtc.Fires := by
      rw [Schedule.fires_iff onTime, due]
      simp
    have next : (schedule.step (.clock .tick)).OnTime :=
      (Schedule.onTime_tick_iff schedule onTime).mpr fun fires => absurd fires quiet
    have left : (schedule.step (.clock .tick)).due = some (before + 1) := by
      show ite _ _ _ = _
      rw [if_neg quiet, due]
      rfl
    obtain ⟨last, none⟩ := ih next left
    refine ⟨last, fun earlier below => ?_⟩
    cases earlier with
    | zero => exact quiet
    | succ earlier => exact none earlier (Nat.lt_of_succ_lt_succ below)

/-- **Exactly when every alarm of a run is on time**: every call that arms one finds the counter at zero,
and every delay that is programmed fits. -/
theorem alarms_on_time_iff (clock : RTCInt) (timeRep : Bool) (inputs : List AlarmInput) :
    Always Schedule.step Schedule.OnTime ⟨.begun clock timeRep, none⟩ inputs ↔
      EachStep Schedule.step Schedule.KeepsTime ⟨.begun clock timeRep, none⟩ inputs := by
  have base : (Schedule.mk (.begun clock timeRep) none).OnTime :=
    ⟨rfl, fun ticks due => by cases due⟩
  exact always_iff_eachStep (fun schedule input onTime _ => Schedule.onTime_step_iff schedule input onTime)
    base (eachStep_of_forall (fun _ _ => trivial) _ _)

/-- Midnight of the first of January 2016. -/
def newYear : RTCInt := ⟨⟨0, 0, 0, 0⟩, ⟨1, 1, 2016⟩, ⟨0, 0, 0, 0⟩, ⟨1, 1, 2016⟩, true, 0⟩

/-- **An alarm set one tick after `begin` comes one tick early.** -/
theorem alarm_early :
    ¬ ∀ (clock : RTCInt) (timeRep : Bool) (inputs : List AlarmInput),
      Always Schedule.step Schedule.OnTime ⟨.begun clock timeRep, none⟩ inputs := by
  intro always
  have onTime := (always newYear true [.clock .tick, .enableAlarm .sec 1 true, .setAlarm]).last
  have early := firstReached_iff.mp (onTime.2 480 rfl)
  exact absurd early (by decide)

end PrimoCore.Rtc
