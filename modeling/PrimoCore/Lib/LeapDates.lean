/-
**Dates that come again.**

From a moment on, a day of the month comes again in most months, and a date of the year in most years. The
number of days until then is compared with what a calculation gives for it.

* `daysToDay`, `daysToDate` — after how many days a day of the month, or a date of the year, comes.
* `dayAhead_iff`, `sameDay_iff`, `exists_day` — a day that is still to come in the month, the current one, and
  any other.
* `dateAhead_iff`, `sameDate_iff`, `exists_date` — the same, for the dates of the year; `isLeast_of_year` says
  in which year a date comes first.
-/

import Mathlib.Order.Bounds.Basic
import PrimoCore.Lib.LeapCalendar

namespace PrimoCore.Lib

/-- After how many days there is such a day of the month. -/
def daysToDay (now : Moment) (day : Nat) : Set Nat :=
  {days | 0 < days ∧ ∃ later : Moment, later.days = now.days + days ∧ later.day = day}

/-- After how many days there is such a date of the year. -/
def daysToDate (now : Moment) (month day : Nat) : Set Nat :=
  {days | 0 < days ∧ ∃ later : Moment, later.days = now.days + days ∧ later.month = month ∧ later.day = day}

variable {now : Moment} {day : Nat}

/-- The moment some days later, at the same time. -/
theorem exists_later (now : Moment) (year month days : Nat) (first : 1 ≤ day) (last : day ≤ monthDays year month)
    (same : dayOf year month day = now.days + days) :
    ∃ later : Moment, later.days = now.days + days ∧ later.year = year ∧ later.month = month ∧
      later.day = day :=
  ⟨⟨year, month, day, 0, 0, 0, first, last, by decide, by decide, by decide⟩, same, rfl, rfl, rfl⟩

/-! ### Days of the month -/

/-- **A day behind the current one** comes in this month, if the month has it. -/
theorem dayAhead_iff (ahead : now.day < day) (last : day ≤ 31) :
    IsLeast (daysToDay now day) (day - now.day) ↔ day ≤ monthDays now.year now.month := by
  have current := now.dayFirst
  have inside := now.dayLast
  obtain ⟨low, high⟩ := now.month_bounds
  obtain ⟨first, second⟩ := @following_bounds now.year now.month high
  have long := @monthDays_ge (following now.year now.month).1 _ first second
  have short := @monthDays_ge now.year _ low high
  constructor
  · rintro ⟨⟨-, later, passed, same⟩, -⟩
    by_contra missing
    obtain ⟨-, -, there⟩ := (Moment.day_after passed).2 (by omega) (by omega)
    omega
  · intro has
    refine ⟨⟨by omega, ?_⟩, ?_⟩
    · obtain ⟨later, passed, -, -, there⟩ := exists_later now now.year now.month
        (day - now.day) (by omega) has (by
          change dayOf now.year now.month day = dayOf now.year now.month now.day + (day - now.day)
          unfold dayOf
          omega)
      exact ⟨later, passed, there⟩
    · rintro days ⟨some_days, later, passed, same⟩
      by_contra early
      obtain ⟨-, -, there⟩ := (Moment.day_after passed).1 (by omega)
      omega

/-- The first day of the next month. -/
theorem exists_next (now : Moment) : ∃ next : Moment,
    next.days = now.days + (monthDays now.year now.month - now.day + 1) ∧
      next.year = (following now.year now.month).1 ∧ next.month = (following now.year now.month).2 ∧
      next.day = 1 := by
  have current := now.dayFirst
  have inside := now.dayLast
  obtain ⟨first, second⟩ := @following_bounds now.year now.month now.month_bounds.2
  have long := @monthDays_ge (following now.year now.month).1 _ first second
  refine exists_later now _ _ _ (Nat.le_refl 1) (by omega) ?_
  rw [dayOf_following]
  change _ = dayOf now.year now.month now.day + _
  unfold dayOf
  omega

/-- **The current day** comes again in the next month, if the month has it. -/
theorem sameDay_iff {length : Nat} (near : length ≤ monthDays now.year now.month + 2)
    (far : monthDays now.year now.month ≤ length + 2) :
    IsLeast (daysToDay now now.day) length ↔ length = monthDays now.year now.month ∧
      now.day ≤ monthDays (following now.year now.month).1 (following now.year now.month).2 := by
  have current := now.dayFirst
  have inside := now.dayLast
  have atMost := monthDays_le now.year now.month
  obtain ⟨next, start, nextYear, nextMonth, nextDay⟩ := exists_next now
  obtain ⟨low, high⟩ := next.month_bounds
  obtain ⟨first, second⟩ := @following_bounds next.year next.month high
  have third := @monthDays_ge (following next.year next.month).1 _ first second
  have long := @monthDays_ge next.year _ low high
  rw [← nextYear, ← nextMonth]
  constructor
  · rintro ⟨⟨positive, later, passed, same⟩, -⟩
    have short := @monthDays_ge now.year _ now.month_bounds.1 now.month_bounds.2
    by_cases here : now.day + length ≤ monthDays now.year now.month
    · obtain ⟨-, -, there⟩ := (Moment.day_after passed).1 here
      omega
    have further : later.days = next.days + (now.day + length - monthDays now.year now.month - 1) := by
      omega
    by_cases inNext : now.day + length - monthDays now.year now.month ≤ monthDays next.year next.month
    · obtain ⟨-, -, there⟩ := (Moment.day_after further).1 (by omega)
      exact ⟨by omega, by omega⟩
    · obtain ⟨-, -, there⟩ := (Moment.day_after further).2 (by omega) (by omega)
      omega
  · rintro ⟨rfl, has⟩
    refine ⟨⟨by omega, ?_⟩, ?_⟩
    · obtain ⟨later, passed, -, -, there⟩ := exists_later next next.year next.month
        (now.day - 1) current has (by
          change dayOf next.year next.month now.day = dayOf next.year next.month next.day + (now.day - 1)
          rw [nextDay]
          unfold dayOf
          omega)
      exact ⟨later, by omega, there⟩
    · rintro days ⟨some_days, later, passed, same⟩
      by_contra early
      by_cases here : now.day + days ≤ monthDays now.year now.month
      · obtain ⟨-, -, there⟩ := (Moment.day_after passed).1 here
        omega
      · have further : later.days = next.days + (now.day + days - monthDays now.year now.month - 1) := by
          omega
        obtain ⟨-, -, there⟩ := (Moment.day_after further).1 (by omega)
        omega

/-- Only February is too short for a day that is not the last of the month before, and March is long. -/
theorem monthDays_third {year month : Nat} (low : 1 ≤ month) (high : month ≤ 12)
    (has : day < monthDays year month)
    (lacks : monthDays (following year month).1 (following year month).2 < day) :
    day ≤ monthDays (following (following year month).1 (following year month).2).1
      (following (following year month).1 (following year month).2).2 := by
  have atMost := monthDays_le year month
  by_cases january : month = 1
  · subst january
    have march : monthDays (following (following year 1).1 (following year 1).2).1
      (following (following year 1).1 (following year 1).2).2 = 31 := rfl
    omega
  · -- Every other month is followed by one of at least thirty days.
    have long : 30 ≤ monthDays (following year month).1 (following year month).2 := by
      have next : (following year month).2 = if month = 12 then 1 else month + 1 := by
        unfold following
        split_ifs <;> rfl
      have other : (following year month).2 ≠ 2 := by
        rw [next]
        split_ifs <;> omega
      rw [monthDays_eq other, next]
      interval_cases month <;> first | exact absurd rfl january | decide
    omega

/-- **A day in front of the current one** comes within two months. -/
theorem exists_day (first : 1 ≤ day) (passed : day < now.day) :
    ∃ days ∈ daysToDay now day, days ≤ 62 := by
  have inside := now.dayLast
  have atMost := monthDays_le now.year now.month
  obtain ⟨next, start, nextYear, nextMonth, nextDay⟩ := exists_next now
  have nextAtMost := monthDays_le next.year next.month
  by_cases has : day ≤ monthDays next.year next.month
  · obtain ⟨later, reached, -, -, there⟩ := exists_later next next.year next.month
      (day - 1) first has (by
        change dayOf next.year next.month day = dayOf next.year next.month next.day + (day - 1)
        rw [nextDay]
        unfold dayOf
        omega)
    exact ⟨monthDays now.year now.month - now.day + 1 + (day - 1),
      ⟨by omega, later, by omega, there⟩, by omega⟩
  · obtain ⟨last, start', lastYear, lastMonth, lastDay⟩ := exists_next next
    have march : day ≤ monthDays last.year last.month := by
      rw [nextYear, nextMonth] at has lastYear lastMonth
      rw [lastYear, lastMonth]
      exact monthDays_third now.month_bounds.1 now.month_bounds.2 (by omega) (Nat.lt_of_not_le has)
    obtain ⟨later, reached, -, -, there⟩ := exists_later last last.year last.month
      (day - 1) first march (by
        change dayOf last.year last.month day = dayOf last.year last.month last.day + (day - 1)
        rw [lastDay]
        unfold dayOf
        omega)
    exact ⟨monthDays now.year now.month - now.day + 1 + (monthDays next.year next.month - next.day + 1) +
      (day - 1), ⟨by omega, later, by omega, there⟩, by omega⟩

/-! ### Dates of the year -/

/-- The days up to a date in a common year, the date included. -/
def dayInYear (month day : Nat) : Nat := daysBeforeMonth 1 month + day

/-- The leap day in front of a date of a year. -/
def leapDayBefore (year month : Nat) : Nat := if 3 ≤ month ∧ year % 4 = 0 then 1 else 0

theorem dayOf_eq (year month : Nat) (first : 1 ≤ day) :
    dayOf year month day + 1 = 365 * year + (year + 3) / 4 + dayInYear month day + leapDayBefore year month := by
  rw [dayOf, daysBeforeYear_eq, daysBeforeMonth_eq, dayInYear, leapDayBefore]
  omega

/-- A date lies in a leap year. -/
theorem dayInYear_le {month : Nat} (first : 1 ≤ day) (last : day ≤ monthDays 0 month) :
    dayInYear month day + leapDayBefore 0 month ≤ 366 := by
  have inside : _ < 366 := @daysBeforeMonth_lt 0 month (day - 1) (by omega)
  rw [daysBeforeMonth_eq] at inside
  unfold dayInYear leapDayBefore
  omega

/-- A date lies in its year. -/
theorem dayOf_lt {year month : Nat} (first : 1 ≤ day) (last : day ≤ monthDays year month) :
    dayOf year month day < daysBeforeYear (year + 1) := by
  have inYear := @daysBeforeMonth_lt year month (day - 1) (by omega)
  rw [daysBeforeYear, dayOf]
  omega

/-- A date lies in front of those of a later year. -/
theorem dayOf_lt_of_year_lt {year month later : Nat} (first : 1 ≤ day) (last : day ≤ monthDays year month)
    (less : year < later) (laterMonth laterDay : Nat) :
    dayOf year month day < dayOf later laterMonth laterDay := by
  have ordered : Monotone daysBeforeYear := monotone_nat_of_le_succ fun _ => Nat.le_add_right ..
  calc dayOf year month day < daysBeforeYear (year + 1) := dayOf_lt first last
    _ ≤ daysBeforeYear later := ordered less
    _ ≤ dayOf later laterMonth laterDay := Nat.le_add_right ..

/-- What comes later does not lie in an earlier year. -/
theorem year_le {year month : Nat} (first : 1 ≤ day) (last : day ≤ monthDays year month)
    (later : now.days ≤ dayOf year month day) : now.year ≤ year := by
  by_contra before
  exact Nat.not_le.mpr
    (dayOf_lt_of_year_lt first last (Nat.lt_of_not_le before) now.month now.day) later

/-- A date comes in the years that have it. -/
theorem mem_daysToDate_iff {month days : Nat} (first : 1 ≤ day) : days ∈ daysToDate now month day ↔
    0 < days ∧ ∃ year, day ≤ monthDays year month ∧ dayOf year month day = now.days + days := by
  refine and_congr_right fun _ => ⟨?_, ?_⟩
  · rintro ⟨later, passed, rfl, rfl⟩
    exact ⟨later.year, later.dayLast, passed⟩
  · rintro ⟨year, last, same⟩
    obtain ⟨later, passed, -, sameMonth, sameDay⟩ := exists_later now year month days first last same
    exact ⟨later, passed, sameMonth, sameDay⟩

/-- **A date comes first in the year** that has it, if it has not come since in the one where it now is. -/
theorem isLeast_of_year {year month length : Nat} (first : 1 ≤ day) (last : day ≤ monthDays year month)
    (comes : dayOf year month day = now.days + length) (positive : 0 < length)
    (passed : now.year < year → dayOf now.year month day ≤ now.days ∧ year = now.year + 1) :
    IsLeast (daysToDate now month day) length := by
  refine ⟨(mem_daysToDate_iff first).mpr ⟨positive, year, last, comes⟩, ?_⟩
  intro days reached
  obtain ⟨some_days, other, has, there⟩ := (mem_daysToDate_iff first).mp reached
  have notBefore : now.year ≤ other := year_le first has (by omega)
  rcases Nat.lt_trichotomy other year with earlier | rfl | later
  · obtain ⟨gone, next⟩ := passed (by omega)
    have current : other = now.year := by omega
    rw [current] at there
    omega
  · omega
  · have behind := dayOf_lt_of_year_lt first last later month day
    omega

/-- No month is longer than in a leap year. -/
theorem monthDays_le_leap (year month : Nat) : monthDays year month ≤ monthDays 0 month := by
  by_cases february : month = 2
  · subst february
    change (if year % 4 = 0 then 29 else 28) ≤ 29
    split_ifs <;> decide
  · rw [monthDays_eq february, monthDays_eq february 0]

/-- Only the leap day is missing in a year. -/
theorem has_date_iff {year month : Nat} (last : day ≤ monthDays 0 month) :
    day ≤ monthDays year month ↔ year % 4 = 0 ∨ ¬ (month = 2 ∧ day = 29) := by
  by_cases february : month = 2
  · subst february
    change day ≤ 29 at last
    change day ≤ (if year % 4 = 0 then 29 else 28) ↔ _
    split_ifs <;> omega
  · rw [monthDays_eq february] at last ⊢
    exact iff_of_true last (.inr fun leapDay => february leapDay.1)

/-- January and February take up to sixty days, the leap day included. -/
theorem dayInYear_le_march {month : Nat} (low : 1 ≤ month) (winter : month < 3)
    (last : day ≤ monthDays 0 month) : dayInYear month day ≤ 60 := by
  unfold dayInYear
  interval_cases month
  · have january : daysBeforeMonth 1 1 = 0 ∧ monthDays 0 1 = 31 := by decide
    omega
  · have february : daysBeforeMonth 1 2 = 31 ∧ monthDays 0 2 = 29 := by decide
    omega

/-- March begins at the place of the leap day. -/
theorem march_le_dayInYear {month : Nat} (march : 3 ≤ month) (first : 1 ≤ day) :
    60 ≤ dayInYear month day := by
  have before : 59 ≤ daysBeforeMonth 1 month := by
    induction month, march using Nat.le_induction with
    | base => decide
    | succ month _ ih => exact Nat.le_add_right_of_le ih
  unfold dayInYear
  omega

/-- **A date behind the current one** comes in this year, on the day that a common year has it, unless the leap
day lies in between; in a common year, unless it is the leap day. -/
theorem dateAhead_iff {month : Nat} (low : 1 ≤ month) (first : 1 ≤ day) (last : day ≤ monthDays 0 month)
    (ahead : dayInYear now.month now.day < dayInYear month day) :
    IsLeast (daysToDate now month day) (dayInYear month day - dayInYear now.month now.day) ↔
      if now.year % 4 = 0 then month < 3 ∨ 3 ≤ now.month else ¬ (month = 2 ∧ day = 29) := by
  have start : now.days + 1 = _ := dayOf_eq now.year now.month now.dayFirst
  have order : month < 3 → now.month < 3 := by
    intro winter
    by_contra march
    have few := dayInYear_le_march low winter last
    have many := march_le_dayInYear (Nat.le_of_not_lt march) now.dayFirst
    omega
  constructor
  · rintro ⟨reached, -⟩
    obtain ⟨-, year, has, same⟩ := (mem_daysToDate_iff first).mp reached
    rw [has_date_iff last] at has
    have there := dayOf_eq year month first
    unfold leapDayBefore at start there
    have thisYear : year = now.year := by split_ifs at start there <;> omega
    subst thisYear
    split_ifs at start there ⊢ <;> omega
  · intro foreseen
    have has : day ≤ monthDays now.year month := by
      rw [has_date_iff last]
      split_ifs at foreseen with leap
      · exact .inl leap
      · exact .inr foreseen
    have there := dayOf_eq now.year month first
    have same : leapDayBefore now.year month = leapDayBefore now.year now.month := by
      unfold leapDayBefore
      split_ifs at foreseen ⊢ <;> omega
    exact isLeast_of_year first has (by omega) (by omega) fun before => absurd before (Nat.lt_irrefl _)

/-- A year later it is as many days later as the year has that holds the February on the way. -/
theorem dayOf_nextYear {year month : Nat} (first : 1 ≤ day) :
    dayOf (year + 1) month day =
      dayOf year month day + yearDays (if month < 3 then year else year + 1) := by
  have start := dayOf_eq year month first
  have again := dayOf_eq (year + 1) month first
  unfold leapDayBefore at start again
  unfold yearDays
  split_ifs at start again ⊢ <;> omega

/-- **The current date** comes again in the next year, unless it is the leap day. -/
theorem sameDate_iff {length : Nat} (near : 363 ≤ length) (far : length ≤ 369) :
    IsLeast (daysToDate now now.month now.day) length ↔
      length = yearDays (if now.month < 3 then now.year else now.year + 1) ∧
        ¬ (now.month = 2 ∧ now.day = 29) := by
  have first := now.dayFirst
  have start : now.days + 1 = _ := dayOf_eq now.year now.month first
  have lastOf : now.day ≤ monthDays 0 now.month := now.dayLast.trans (monthDays_le_leap ..)
  have leapDay := (has_date_iff lastOf).mp now.dayLast
  constructor
  · rintro ⟨reached, -⟩
    obtain ⟨-, year, has, same⟩ := (mem_daysToDate_iff first).mp reached
    rw [has_date_iff lastOf] at has
    have there := dayOf_eq year now.month first
    unfold leapDayBefore at start there
    unfold yearDays
    have nextYear : year = now.year + 1 := by split_ifs at start there <;> omega
    subst nextYear
    split_ifs at start there ⊢ <;> omega
  · rintro ⟨whole, other⟩
    have has : now.day ≤ monthDays (now.year + 1) now.month := (has_date_iff lastOf).mpr (.inr other)
    have comes : dayOf (now.year + 1) now.month now.day = now.days + length := whole ▸ dayOf_nextYear first
    exact isLeast_of_year first has comes (by omega) fun _ => ⟨Nat.le_refl now.days, rfl⟩

/-- **Any date of a leap year** comes within five years. -/
theorem exists_date (now : Moment) {month : Nat} (first : 1 ≤ day) (last : day ≤ monthDays 0 month) :
    ∃ days ∈ daysToDate now month day, days ≤ 1830 := by
  obtain ⟨year, is_year⟩ : ∃ year, year = now.year + (4 - now.year % 4) := ⟨_, rfl⟩
  have has : day ≤ monthDays year month := (has_date_iff last).mpr (.inl (by omega))
  have behind : now.days < dayOf year month day :=
    dayOf_lt_of_year_lt now.dayFirst now.dayLast (by omega) month day
  have near := dayOf_lt first has
  have start : daysBeforeYear now.year ≤ now.days := Nat.le_add_right ..
  rw [daysBeforeYear_eq] at near start
  exact ⟨dayOf year month day - now.days, (mem_daysToDate_iff first).mpr ⟨by omega, year, has, by omega⟩,
    by omega⟩

/-- **The leap day**, from 1 March on, is a common year away, if the next year is a leap year. -/
theorem leapDay_iff (march : now.month = 3) (day : now.day = 1) :
    IsLeast (daysToDate now 2 29) 365 ↔ (now.year + 1) % 4 = 0 := by
  have start : now.days + 1 = _ := dayOf_eq now.year now.month now.dayFirst
  have here : dayInYear 3 1 = 60 ∧ dayInYear 2 29 = 60 := by decide
  rw [march, day, here.1] at start
  have has : ∀ year, 29 ≤ monthDays year 2 ↔ year % 4 = 0 := fun year =>
    (@has_date_iff 29 year 2 (by decide)).trans (by simp)
  have there := fun year => dayOf_eq year 2 (by decide : 1 ≤ 29)
  simp only [here.2, leapDayBefore] at start there
  constructor
  · rintro ⟨reached, -⟩
    obtain ⟨-, year, leap, same⟩ := (mem_daysToDate_iff (by decide)).mp reached
    have found := there year
    rw [has] at leap
    split_ifs at start found <;> omega
  · intro leap
    have comes : dayOf (now.year + 1) 2 29 = now.days + 365 := by
      have found := there (now.year + 1)
      split_ifs at start found <;> omega
    have gone : dayOf now.year 2 29 ≤ now.days := by
      have found := there now.year
      split_ifs at start found <;> omega
    exact isLeast_of_year (by decide) ((has _).mpr leap) comes (by decide) fun _ => ⟨gone, rfl⟩

/-- Two dates of a common year at one place are the same. -/
theorem date_of_dayInYear {month other otherDay : Nat} (first : 1 ≤ day) (last : day ≤ monthDays 1 month)
    (otherFirst : 1 ≤ otherDay) (otherLast : otherDay ≤ monthDays 1 other)
    (same : dayInYear month day = dayInYear other otherDay) : month = other ∧ day = otherDay := by
  unfold dayInYear at same
  obtain ⟨sameMonth, sameDay⟩ := @eq_of_ranges (daysBeforeMonth 1) (monthDays 1) (fun _ => rfl) month other
    (day - 1) (otherDay - 1) (by omega) (by omega) (by omega)
  exact ⟨sameMonth, by omega⟩

/-- **Two dates at one place** are the same, or the leap day and 1 March. -/
theorem dayInYear_eq_iff {month other otherDay : Nat} (first : 1 ≤ day) (last : day ≤ monthDays 0 month)
    (otherFirst : 1 ≤ otherDay) (otherLast : otherDay ≤ monthDays 0 other) :
    dayInYear month day = dayInYear other otherDay ↔ (month = other ∧ day = otherDay) ∨
      (month = 2 ∧ day = 29) ∧ (other = 3 ∧ otherDay = 1) ∨
      (month = 3 ∧ day = 1) ∧ (other = 2 ∧ otherDay = 29) := by
  have common := @has_date_iff _ 1 _ last
  have otherCommon := @has_date_iff _ 1 _ otherLast
  have march : dayInYear 2 29 = dayInYear 3 1 := by decide
  constructor
  · intro same
    by_cases leapDay : month = 2 ∧ day = 29
    · by_cases otherLeapDay : other = 2 ∧ otherDay = 29
      · exact .inl (by omega)
      · obtain ⟨rfl, rfl⟩ := leapDay
        rw [march] at same
        obtain ⟨rfl, rfl⟩ := date_of_dayInYear (by decide) (by decide) otherFirst
          (otherCommon.mpr (.inr otherLeapDay)) same
        exact .inr (.inl ⟨⟨rfl, rfl⟩, rfl, rfl⟩)
    · by_cases otherLeapDay : other = 2 ∧ otherDay = 29
      · obtain ⟨rfl, rfl⟩ := otherLeapDay
        rw [march] at same
        obtain ⟨rfl, rfl⟩ := date_of_dayInYear first (common.mpr (.inr leapDay)) (by decide) (by decide) same
        exact .inr (.inr ⟨⟨rfl, rfl⟩, rfl, rfl⟩)
      · exact .inl (date_of_dayInYear first (common.mpr (.inr leapDay)) otherFirst
          (otherCommon.mpr (.inr otherLeapDay)) same)
  · rintro (⟨rfl, rfl⟩ | ⟨⟨rfl, rfl⟩, rfl, rfl⟩ | ⟨⟨rfl, rfl⟩, rfl, rfl⟩)
    · rfl
    · exact march
    · exact march.symm

/-- A date in a later month, or on a later day of the month, is not in front. -/
theorem dayInYear_le_of_later {month other otherDay : Nat} (last : day ≤ monthDays 0 month)
    (otherFirst : 1 ≤ otherDay) (later : month < other ∨ month = other ∧ day ≤ otherDay) :
    dayInYear month day ≤ dayInYear other otherDay := by
  rcases later with less | ⟨rfl, more⟩
  · have ordered : Monotone (daysBeforeMonth 1) := monotone_nat_of_le_succ fun _ => Nat.le_add_right ..
    have behind : daysBeforeMonth 1 (month + 1) ≤ daysBeforeMonth 1 other := ordered less
    have nearly : monthDays 0 month ≤ monthDays 1 month + 1 := by
      by_cases february : month = 2
      · subst february
        decide
      · rw [monthDays_eq february]
        exact Nat.le_succ _
    rw [daysBeforeMonth] at behind
    unfold dayInYear
    omega
  · exact Nat.add_le_add_left more _

end PrimoCore.Lib
