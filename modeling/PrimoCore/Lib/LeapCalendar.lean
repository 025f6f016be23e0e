/-
**A calendar whose leap years are the years divisible by 4.**

A moment is a second of the calendar, from the first one of the year 0 on. Its fields carry the proofs
that the day exists and the time is one of a day.

* `Moment.seconds` — the seconds that lie before a moment, counted over whole years, months and days.
* `daysBeforeYear_eq`, `daysBeforeMonth_eq` — the days before a year, and before a month in it.
* `Moment.eq_of_seconds` — a moment is determined by them.
* `Moment.tomorrow`, `Moment.nextMonth`, `Moment.nextYear` — the day after, where it lies in the month, in
  the year, and behind them.
-/

import Mathlib.Order.Monotone.Basic
import Mathlib.Tactic.IntervalCases
import Mathlib.Tactic.SplitIfs

namespace PrimoCore.Lib

/-- A position in consecutive ranges lies in one of them, at one offset. -/
theorem eq_of_ranges {start size : Nat → Nat} (next : ∀ index, start (index + 1) = start index + size index)
    {first second offset other : Nat} (inFirst : offset < size first) (inSecond : other < size second)
    (same : start first + offset = start second + other) : first = second ∧ offset = other := by
  have ordered : Monotone start := monotone_nat_of_le_succ fun index => by
    rw [next]
    exact Nat.le_add_right ..
  have firstNext := next first
  have secondNext := next second
  rcases Nat.lt_trichotomy first second with before | rfl | after
  · have behind : start (first + 1) ≤ start second := ordered before
    omega
  · exact ⟨rfl, Nat.add_left_cancel same⟩
  · have behind : start (second + 1) ≤ start first := ordered after
    omega

/-! ### Years and months -/

/-- The days of a month; none, where there is no such month. -/
def monthDays (year : Nat) : Nat → Nat
  | 2 => if year % 4 = 0 then 29 else 28
  | 4 | 6 | 9 | 11 => 30
  | 1 | 3 | 5 | 7 | 8 | 10 | 12 => 31
  | _ => 0

/-- The days of a year. -/
def yearDays (year : Nat) : Nat := if year % 4 = 0 then 366 else 365

/-- The days before a month, in its year. -/
def daysBeforeMonth (year : Nat) : Nat → Nat
  | 0 => 0
  | month + 1 => daysBeforeMonth year month + monthDays year month

/-- The days before a year. -/
def daysBeforeYear : Nat → Nat
  | 0 => 0
  | year + 1 => daysBeforeYear year + yearDays year

theorem month_le {year month : Nat} (some_days : 0 < monthDays year month) : month ≤ 12 := by
  unfold monthDays at some_days
  split at some_days <;> omega

theorem month_pos {year month : Nat} (some_days : 0 < monthDays year month) : 1 ≤ month := by
  unfold monthDays at some_days
  split at some_days <;> omega

theorem monthDays_pos {year month : Nat} (first : 1 ≤ month) (last : month ≤ 12) :
    0 < monthDays year month := by
  interval_cases month <;> simp only [monthDays] <;> first | decide | split_ifs <;> decide

theorem monthDays_le (year month : Nat) : monthDays year month ≤ 31 := by
  unfold monthDays
  split <;> first | split_ifs <;> decide | decide

/-- The months make up the year. -/
theorem daysBeforeMonth_thirteen (year : Nat) : daysBeforeMonth year 13 = yearDays year := by
  simp only [daysBeforeMonth, monthDays, yearDays]
  split_ifs <;> rfl

/-- The days of a month lie in the year. -/
theorem daysBeforeMonth_lt {year month offset : Nat} (inside : offset < monthDays year month) :
    daysBeforeMonth year month + offset < yearDays year := by
  have ordered : Monotone (daysBeforeMonth year) :=
    monotone_nat_of_le_succ fun _ => Nat.le_add_right ..
  have last : month + 1 ≤ 13 := Nat.succ_le_succ (month_le (Nat.zero_lt_of_lt inside))
  calc daysBeforeMonth year month + offset
      < daysBeforeMonth year (month + 1) := Nat.add_lt_add_left inside _
    _ ≤ daysBeforeMonth year 13 := ordered last
    _ = yearDays year := daysBeforeMonth_thirteen year

/-- Only February is longer in one year than in another. -/
theorem monthDays_eq {month : Nat} (other : month ≠ 2) (year : Nat) :
    monthDays year month = monthDays 1 month := by
  unfold monthDays
  split <;> first | rfl | exact absurd rfl other

/-- The days before a month: those of a common year, and the leap day behind February. -/
theorem daysBeforeMonth_eq (year month : Nat) : daysBeforeMonth year month =
    daysBeforeMonth 1 month + if 3 ≤ month ∧ year % 4 = 0 then 1 else 0 := by
  induction month with
  | zero => rfl
  | succ month ih =>
    rw [daysBeforeMonth, daysBeforeMonth, ih]
    by_cases february : month = 2
    · subst february
      by_cases leap : year % 4 = 0 <;> simp [monthDays, leap]
    · rw [monthDays_eq february]
      split_ifs <;> omega

/-- The days before a year. -/
theorem daysBeforeYear_eq (year : Nat) : daysBeforeYear year = 365 * year + (year + 3) / 4 := by
  induction year with
  | zero => rfl
  | succ year ih =>
    rw [daysBeforeYear, ih, yearDays]
    split_ifs <;> omega

/-- The days before a date. -/
def dayOf (year month day : Nat) : Nat :=
  daysBeforeYear year + (daysBeforeMonth year month + (day - 1))

/-- The year and the month behind a month. -/
def following (year month : Nat) : Nat × Nat := if month = 12 then (year + 1, 1) else (year, month + 1)

/-- The days go on into the next month. -/
theorem dayOf_following (year month day : Nat) :
    dayOf (following year month).1 (following year month).2 day =
      dayOf year month 1 + monthDays year month + (day - 1) := by
  have whole : daysBeforeMonth year 12 + monthDays year 12 = yearDays year :=
    daysBeforeMonth_thirteen year
  have january : daysBeforeMonth (year + 1) 1 = 0 := rfl
  unfold following dayOf
  split_ifs with december
  · simp only [december, january, daysBeforeYear]
    omega
  · simp only [daysBeforeMonth]
    omega

/-- There is a month behind each. -/
theorem following_bounds {year month : Nat} (last : month ≤ 12) :
    1 ≤ (following year month).2 ∧ (following year month).2 ≤ 12 := by
  unfold following
  split_ifs <;> dsimp only <;> omega

theorem monthDays_ge {year month : Nat} (first : 1 ≤ month) (last : month ≤ 12) :
    28 ≤ monthDays year month := by
  interval_cases month <;> simp only [monthDays] <;> first | decide | split_ifs <;> decide

/-! ### Moments -/

/-- A second of the calendar. -/
@[ext] structure Moment where
  year : Nat
  month : Nat
  day : Nat
  hour : Nat
  minute : Nat
  second : Nat
  dayFirst : 1 ≤ day
  dayLast : day ≤ monthDays year month
  hourLast : hour < 24
  minuteLast : minute < 60
  secondLast : second < 60

namespace Moment

/-- The days before a moment. -/
def days (moment : Moment) : Nat :=
  daysBeforeYear moment.year + (daysBeforeMonth moment.year moment.month + (moment.day - 1))

/-- **The seconds before a moment.** -/
def seconds (moment : Moment) : Nat :=
  ((moment.days * 24 + moment.hour) * 60 + moment.minute) * 60 + moment.second

theorem month_bounds (moment : Moment) : 1 ≤ moment.month ∧ moment.month ≤ 12 :=
  have some_days := Nat.lt_of_lt_of_le moment.dayFirst moment.dayLast
  ⟨month_pos some_days, month_le some_days⟩

/-- The days determine the date. -/
theorem date_of_days {first second : Moment} (same : first.days = second.days) :
    first.year = second.year ∧ first.month = second.month ∧ first.day = second.day := by
  have firstDay := first.dayFirst
  have secondDay := second.dayFirst
  have inFirst : first.day - 1 < monthDays first.year first.month := by
    have := first.dayLast
    omega
  have inSecond : second.day - 1 < monthDays second.year second.month := by
    have := second.dayLast
    omega
  obtain ⟨sameYear, inYear⟩ := eq_of_ranges (fun _ => rfl) (daysBeforeMonth_lt inFirst)
    (daysBeforeMonth_lt inSecond) same
  rw [sameYear] at inFirst inYear
  obtain ⟨sameMonth, inMonth⟩ := eq_of_ranges (fun _ => rfl) inFirst inSecond inYear
  exact ⟨sameYear, sameMonth, by omega⟩

/-- The date on a day. -/
theorem date_eq {moment : Moment} {year month day : Nat} (first : 1 ≤ day)
    (last : day ≤ monthDays year month) (same : moment.days = dayOf year month day) :
    moment.year = year ∧ moment.month = month ∧ moment.day = day :=
  @date_of_days moment ⟨year, month, day, 0, 0, 0, first, last, by decide, by decide, by decide⟩ same

/-- The second of the day. -/
def ofDay (moment : Moment) : Nat := (moment.hour * 60 + moment.minute) * 60 + moment.second

theorem ofDay_lt (moment : Moment) : moment.ofDay < 86400 := by
  have hours := moment.hourLast
  have minutes := moment.minuteLast
  have seconds := moment.secondLast
  unfold ofDay
  omega

theorem seconds_eq (moment : Moment) : moment.seconds = moment.days * 86400 + moment.ofDay := by
  unfold seconds ofDay
  omega

/-- **The day of the month** after some days: in the same month, or in the next one. -/
theorem day_after {now later : Moment} {days : Nat} (passed : later.days = now.days + days) :
    (now.day + days ≤ monthDays now.year now.month →
      later.year = now.year ∧ later.month = now.month ∧ later.day = now.day + days) ∧
    (monthDays now.year now.month < now.day + days →
      now.day + days - monthDays now.year now.month ≤
        monthDays (following now.year now.month).1 (following now.year now.month).2 →
      later.year = (following now.year now.month).1 ∧ later.month = (following now.year now.month).2 ∧
        later.day = now.day + days - monthDays now.year now.month) := by
  have first := now.dayFirst
  have start : now.days = dayOf now.year now.month now.day := rfl
  constructor
  · intro inside
    refine date_eq (by omega) inside ?_
    rw [passed, start]
    unfold dayOf
    omega
  · intro behind inside
    refine date_eq (by omega) inside ?_
    rw [passed, start, dayOf_following]
    unfold dayOf
    omega

/-- **A moment is determined by the seconds before it.** -/
theorem eq_of_seconds {first second : Moment} (same : first.seconds = second.seconds) :
    first = second := by
  have hours := first.hourLast
  have otherHours := second.hourLast
  have minutes := first.minuteLast
  have otherMinutes := second.minuteLast
  have rest := first.secondLast
  have otherRest := second.secondLast
  unfold seconds at same
  have sameDays : first.days = second.days := by omega
  obtain ⟨year, month, day⟩ := date_of_days sameDays
  exact Moment.ext year month day (by omega) (by omega) (by omega)

/-! ### The day after -/

/-- The next day of the month, at the same time. -/
def tomorrow (moment : Moment) (more : moment.day < monthDays moment.year moment.month) : Moment :=
  { moment with day := moment.day + 1, dayFirst := Nat.le_add_left .., dayLast := more }

/-- The first day of the next month, at the same time. -/
def nextMonth (moment : Moment) (more : moment.month < 12) : Moment :=
  { moment with
    month := moment.month + 1
    day := 1
    dayFirst := Nat.one_pos
    dayLast := monthDays_pos (Nat.le_add_left ..) more }

/-- The first day of the next year, at the same time. -/
def nextYear (moment : Moment) : Moment :=
  { moment with
    year := moment.year + 1
    month := 1
    day := 1
    dayFirst := Nat.one_pos
    dayLast := monthDays_pos (Nat.le_refl 1) (Nat.le_add_left ..) }

theorem days_tomorrow (moment : Moment) (more : moment.day < monthDays moment.year moment.month) :
    (moment.tomorrow more).days = moment.days + 1 := by
  have first := moment.dayFirst
  simp only [days, tomorrow]
  omega

theorem days_nextMonth (moment : Moment) (more : moment.month < 12)
    (last : moment.day = monthDays moment.year moment.month) :
    (moment.nextMonth more).days = moment.days + 1 := by
  have first := moment.dayFirst
  simp only [days, nextMonth, daysBeforeMonth]
  omega

theorem days_nextYear (moment : Moment) (december : moment.month = 12)
    (last : moment.day = monthDays moment.year moment.month) :
    moment.nextYear.days = moment.days + 1 := by
  have first := moment.dayFirst
  have whole : daysBeforeMonth moment.year 12 + monthDays moment.year 12 = yearDays moment.year :=
    daysBeforeMonth_thirteen moment.year
  have january : daysBeforeMonth (moment.year + 1) 1 = 0 := rfl
  rw [december] at last
  simp only [days, nextYear, daysBeforeYear, december, january]
  omega

end Moment

end PrimoCore.Lib
