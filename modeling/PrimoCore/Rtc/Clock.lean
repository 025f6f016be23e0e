/-
**The software clock of `RTCInt`.**

The class counts time in two internal records, `timeInt` and `dateInt`. The setters write them, one
field at a time, from the arguments or from the public records `time` and `date`; the tick interrupt
of RTC2 advances them, eight ticks to the second.

* `setHour`, `setMinute`, `setSecond`, `setTime`, `setDay`, `setMonth`, `setYear`, `setDate` — the
  setters. The source also tests `>= 0`, which holds of every unsigned value.
* `tick` — the tick half of `RTC2_IRQHandler`, with its table `daysPerMonth`.
* `Input`, `RTCInt.step` — a program's calls and the interrupts, one at a time, in any order.

A `setTime` or `setDate` that an interrupt splits is the run of the setters it consists of, with the
tick between them.
-/

import PrimoCore.Lib.Run

namespace PrimoCore.Rtc

/-- `TIME`. -/
structure Time where
  hour : UInt32
  minute : UInt32
  second : UInt32
  tmode : UInt8
  deriving DecidableEq, Repr

/-- `DATE`. -/
structure Date where
  day : UInt32
  month : UInt32
  year : UInt32
  deriving DecidableEq, Repr

/-- The object `rtcPointer` points to, with the two file-scope variables its code shares with the
interrupt handler. -/
structure RTCInt where
  time : Time
  date : Date
  timeInt : Time
  dateInt : Date
  /-- `time_Mode`: `true` is `TIME_H24`, `false` is `TIME_H12`. -/
  timeMode : Bool
  count : UInt8
  deriving DecidableEq, Repr

/-! ### The setters -/

namespace RTCInt

def setHour (rtc : RTCInt) (hour : UInt32) (meridian : UInt8) : RTCInt :=
  if rtc.timeMode then
    if hour ≤ 23 then { rtc with timeInt := { rtc.timeInt with hour := hour } } else rtc
  else
    if hour ≤ 12 then
      let hour := if meridian ≠ 0 then hour + 12 else hour
      { rtc with timeInt := { rtc.timeInt with hour := hour } }
    else rtc

def setMinute (rtc : RTCInt) (minute : UInt32) : RTCInt :=
  if minute ≤ 59 then { rtc with timeInt := { rtc.timeInt with minute := minute } } else rtc

def setSecond (rtc : RTCInt) (second : UInt32) : RTCInt :=
  if second ≤ 59 then { rtc with timeInt := { rtc.timeInt with second := second } } else rtc

/-- `setTime` with arguments. -/
def setTime (rtc : RTCInt) (hour : UInt32) (meridian : UInt8) (minute second : UInt32) : RTCInt :=
  ((rtc.setHour hour meridian).setMinute minute).setSecond second

/-- `setTime` without arguments: from the public record `time`. -/
def setTimeFromRecord (rtc : RTCInt) : RTCInt :=
  rtc.setTime rtc.time.hour rtc.time.tmode rtc.time.minute rtc.time.second

def setDay (rtc : RTCInt) (day : UInt32) : RTCInt :=
  if 1 ≤ day ∧ day ≤ 31 then { rtc with dateInt := { rtc.dateInt with day := day } } else rtc

def setMonth (rtc : RTCInt) (month : UInt32) : RTCInt :=
  if 1 ≤ month ∧ month ≤ 12 then { rtc with dateInt := { rtc.dateInt with month := month } } else rtc

def setYear (rtc : RTCInt) (year : UInt32) : RTCInt :=
  { rtc with dateInt := { rtc.dateInt with year := year } }

/-- `setDate` with arguments. -/
def setDate (rtc : RTCInt) (day month year : UInt32) : RTCInt :=
  ((rtc.setDay day).setMonth month).setYear year

/-- `setDate` without arguments: from the public record `date`. -/
def setDateFromRecord (rtc : RTCInt) : RTCInt :=
  rtc.setDate rtc.date.day rtc.date.month rtc.date.year

end RTCInt

/-! ### The tick interrupt -/

/-- `daysPerMonth`: the day after the last one, in common years and in leap years. -/
def daysPerMonth : List (UInt32 × UInt32) :=
  [(32, 32), (29, 30), (32, 32), (31, 31), (32, 32), (31, 31), (32, 32), (32, 32), (31, 31),
    (32, 32), (31, 31), (32, 32)]

/-- `daysPerMonth[month - 1][!(year % 4)]`. -/
def dayLimit (month year : UInt32) : UInt32 :=
  let row := daysPerMonth.getD (month - 1).toNat (0, 0)
  if year % 4 = 0 then row.2 else row.1

namespace Date

/-- Midnight: the innermost two roll-overs of the handler. -/
def nextDay (date : Date) : Date :=
  if date.day + 1 = dayLimit date.month date.year then
    if date.month + 1 = 13 then ⟨1, 1, date.year + 1⟩ else ⟨1, date.month + 1, date.year⟩
  else { date with day := date.day + 1 }

end Date

namespace RTCInt

/-- A full hour has passed. -/
def nextHour (rtc : RTCInt) : RTCInt :=
  if rtc.timeInt.hour + 1 = 24 then
    { rtc with timeInt := { rtc.timeInt with hour := 0 }, dateInt := rtc.dateInt.nextDay }
  else { rtc with timeInt := { rtc.timeInt with hour := rtc.timeInt.hour + 1 } }

/-- A full minute has passed. -/
def nextMinute (rtc : RTCInt) : RTCInt :=
  if rtc.timeInt.minute + 1 = 60 then
    nextHour { rtc with timeInt := { rtc.timeInt with minute := 0 } }
  else { rtc with timeInt := { rtc.timeInt with minute := rtc.timeInt.minute + 1 } }

/-- A full second has passed. -/
def nextSecond (rtc : RTCInt) : RTCInt :=
  if rtc.timeInt.second + 1 = 60 then
    nextMinute { rtc with timeInt := { rtc.timeInt with second := 0 } }
  else { rtc with timeInt := { rtc.timeInt with second := rtc.timeInt.second + 1 } }

/-- The tick half of `RTC2_IRQHandler`: a tick every 125 ms, eight to the second. -/
def tick (rtc : RTCInt) : RTCInt :=
  if rtc.count + 1 = 8 then nextSecond { rtc with count := 0 }
  else { rtc with count := rtc.count + 1 }

end RTCInt

/-! ### Runs -/

/-- What can happen to the clock: a call of the program, or a tick. `writeTime` and `writeDate` are
the program's assignments to the public records. -/
inductive Input where
  | setHour (hour : UInt32) (meridian : UInt8)
  | setMinute (minute : UInt32)
  | setSecond (second : UInt32)
  | setTime (hour : UInt32) (meridian : UInt8) (minute second : UInt32)
  | setTimeFromRecord
  | setDay (day : UInt32)
  | setMonth (month : UInt32)
  | setYear (year : UInt32)
  | setDate (day month year : UInt32)
  | setDateFromRecord
  | writeTime (time : Time)
  | writeDate (date : Date)
  | tick
  deriving DecidableEq, Repr

def RTCInt.step (rtc : RTCInt) : Input → RTCInt
  | .setHour hour meridian => rtc.setHour hour meridian
  | .setMinute minute => rtc.setMinute minute
  | .setSecond second => rtc.setSecond second
  | .setTime hour meridian minute second => rtc.setTime hour meridian minute second
  | .setTimeFromRecord => rtc.setTimeFromRecord
  | .setDay day => rtc.setDay day
  | .setMonth month => rtc.setMonth month
  | .setYear year => rtc.setYear year
  | .setDate day month year => rtc.setDate day month year
  | .setDateFromRecord => rtc.setDateFromRecord
  | .writeTime time => { rtc with time := time }
  | .writeDate date => { rtc with date := date }
  | .tick => rtc.tick

end PrimoCore.Rtc
