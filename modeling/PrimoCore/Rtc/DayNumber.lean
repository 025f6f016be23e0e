/-
**Day numbers.**

`rdn` numbers the days by the Gregorian rule for leap years, with divisions that round toward zero; the
interrupt handler counts days by a table in which every fourth year is a leap year.

* `rdnResults_last`, `rdn_eq` — `rdn` as a sum: whole years, leap days and the days before the month.
* `RdnDefined` — no result on the way to the day number overflows an `int`; `rdnDefined_iff` — so it is up to
  `lastYear`.
* `number_nextDay` — a midnight adds one, except behind a 29 February that `rdn` does not count.
* `midnights_counted_iff` — **the difference of two day numbers is the number of midnights exactly when** no
  such 29 February lies between.
-/

import Mathlib.Data.Nat.Count
import Mathlib.Tactic.Ring
import PrimoCore.Rtc.Timekeeping

namespace PrimoCore.Rtc

open PrimoCore.Lib

/-! ### The formula -/

/-- The intermediate results of `rdn`, in the order of the expression. -/
def rdnResults (y m d : Int) : List Int :=
  let (y, m) := if m < 3 then (y - 1, m + 12) else (y, m)
  let years := 365 * y + y.tdiv 4 - y.tdiv 100 + y.tdiv 400
  [y, m, 365 * y, 365 * y + y.tdiv 4, 365 * y + y.tdiv 4 - y.tdiv 100, years, 153 * m, 153 * m - 457,
    years + (153 * m - 457).tdiv 5, years + (153 * m - 457).tdiv 5 + d,
    years + (153 * m - 457).tdiv 5 + d - 306]

theorem rdn_eq_last (y m d : Int) : rdn y m d = .ofInt ((rdnResults y m d).getLastD 0) := rfl

/-- **`rdn` is defined**: none of its results overflows an `int`. -/
def RdnDefined (year month day : UInt32) : Prop :=
  ∀ result ∈ rdnResults (toInt year) (toInt month) (toInt day), -2 ^ 31 ≤ result ∧ result < 2 ^ 31

instance (year month day : UInt32) : Decidable (RdnDefined year month day) :=
  inferInstanceAs (Decidable (∀ _ ∈ _, _))

/-- The day number of a date. -/
def Date.dayNumber (date : Date) : UInt32 := rdnOf date.year date.month date.day

/-- The year as `rdn` counts it, from one March to the next. -/
def marchYear (year : Int) (month : Nat) : Int := if month < 3 then year - 1 else year

/-- The leap days that `rdn` counts in front of the March of a year. -/
def leapDays (year : Int) : Int := year.tdiv 4 - year.tdiv 100 + year.tdiv 400

/-- **The result is a sum**: the days of the years, the leap days, and the days before the month in a common
year. -/
theorem rdnResults_last {year : Int} {month : Nat} (first : 1 ≤ month) (last : month ≤ 12) (day : Int) :
    (rdnResults year month day).getLastD 0 =
      365 * (year - 1) + leapDays (marchYear year month) + daysBeforeMonth 1 month + day := by
  have term : if month < 3 then (153 * ((month : Int) + 12) - 457).tdiv 5 = daysBeforeMonth 1 month + 306
      else (153 * (month : Int) - 457).tdiv 5 + 59 = daysBeforeMonth 1 month := by
    interval_cases month <;> decide
  unfold rdnResults leapDays marchYear
  by_cases winter : month < 3
  · rw [if_pos winter] at term
    simp only [if_pos winter, if_pos (show (month : Int) < 3 by omega), term, List.getLastD_cons,
      List.getLastD_nil]
    ring
  · rw [if_neg winter] at term
    simp only [if_neg winter, if_neg (show ¬ (month : Int) < 3 by omega), ← term, List.getLastD_cons,
      List.getLastD_nil]
    ring

theorem rdnResults_last_mem (year month day : Int) :
    (rdnResults year month day).getLastD 0 ∈ rdnResults year month day := by
  unfold rdnResults
  split_ifs <;> simp only [List.getLastD_cons, List.getLastD_nil, List.mem_cons, true_or, or_true]

theorem rdn_eq {year : Int} {month : Nat} (first : 1 ≤ month) (last : month ≤ 12) (day : Int) :
    rdn year month day =
      .ofInt (365 * (year - 1) + leapDays (marchYear year month) + daysBeforeMonth 1 month + day) := by
  rw [rdn_eq_last, rdnResults_last first last]

/-- A thirteenth month is the first one of the next year. -/
theorem rdn_thirteen (year day : Int) : rdn year 13 day = .ofInt (365 * year + leapDays year + day) := by
  have term : (153 * 13 - 457 : Int).tdiv 5 = 306 := by decide
  unfold rdn leapDays
  rw [if_neg (by decide)]
  dsimp only
  rw [term]
  refine congrArg UInt32.ofInt ?_
  ring

/-- A year has at most one leap day more than the one before. -/
theorem leapDays_step (year : Int) :
    leapDays year = leapDays (year - 1) ∨ leapDays year = leapDays (year - 1) + 1 := by
  unfold leapDays
  by_cases later : 0 < year
  · simp only [Int.tdiv_eq_ediv_of_nonneg (show 0 ≤ year by omega),
      Int.tdiv_eq_ediv_of_nonneg (show 0 ≤ year - 1 by omega)]
    omega
  · obtain ⟨back, rfl⟩ : ∃ back : Nat, year = -(back : Int) := ⟨year.natAbs, by omega⟩
    have next : -(back : Int) - 1 = -((back + 1 : Nat) : Int) := by omega
    simp only [next, Int.neg_tdiv, Int.tdiv_eq_ediv_of_nonneg (Int.natCast_nonneg _)]
    omega

/-- An `unsigned int` as an `int`. -/
theorem toInt_eq (value : UInt32) :
    toInt value = if value.toNat < 2 ^ 31 then (value.toNat : Int) else value.toNat - 2 ^ 32 := by
  unfold toInt
  rw [Int32.toInt, UInt32.toBitVec_toInt32, BitVec.toInt_eq_toNat_cond, UInt32.toNat_toBitVec]
  split_ifs <;> omega

theorem toInt_of_lt {value : UInt32} (small : value.toNat < 2 ^ 31) : toInt value = value.toNat := by
  rw [toInt_eq, if_pos small]

theorem toInt_inj {first second : UInt32} (same : toInt first = toInt second) : first = second := by
  have size := first.toNat_lt
  have otherSize := second.toNat_lt
  rw [toInt_eq, toInt_eq] at same
  rw [← UInt32.toNat_inj]
  split_ifs at same <;> omega

/-- The difference of two words that an `int` is converted to. -/
theorem toNat_ofInt_sub (first second : Int) :
    (UInt32.ofInt first - UInt32.ofInt second).toNat = ((first - second) % 2 ^ 32).toNat := by
  rw [UInt32.sub_eq_add_neg, ← UInt32.ofInt_neg, ← UInt32.ofInt_add, ← Int.sub_eq_add_neg]
  exact UInt32.toNat_ofNat_of_lt' (by
    have word : UInt32.size = 4294967296 := rfl
    omega)

/-! ### Midnights -/

namespace Date

/-- **What midnight does to a valid date**: the next day of the month, the first of the next month, or the
first of the next year. -/
theorem nextDay_cases {date : Date} (valid : date.Valid) :
    (date.day.toNat < monthDays date.year.toNat date.month.toNat ∧
        date.nextDay = { date with day := date.day + 1 }) ∨
      date.day.toNat = monthDays date.year.toNat date.month.toNat ∧
        (date.month.toNat < 12 ∧ date.nextDay = ⟨1, date.month + 1, date.year⟩ ∨
          date.month.toNat = 12 ∧ date.nextDay = ⟨1, 1, date.year + 1⟩) := by
  have inside := valid.dayLast
  obtain ⟨first, last, -, -⟩ := valid
  rw [UInt32.le_iff_toNat_le] at first last
  change date.month.toNat ≤ 12 at last
  have short := monthDays_le date.year.toNat date.month.toNat
  have atLimit : date.day + 1 = dayLimit date.month date.year ↔
      date.day.toNat = monthDays date.year.toNat date.month.toNat :=
    succ_eq_iff (by omega) rfl (dayLimit_toNat first last rfl)
  have december : date.month + 1 = 13 ↔ date.month.toNat = 12 := succ_eq_iff (by omega) rfl rfl
  simp only [nextDay, atLimit, december]
  split_ifs with lastDay lastMonth
  · exact .inr ⟨lastDay, .inr ⟨lastMonth, rfl⟩⟩
  · exact .inr ⟨lastDay, .inl ⟨by omega, rfl⟩⟩
  · exact .inl ⟨by omega, rfl⟩

theorem eq_iff (first second : Date) : first = second ↔ first.day.toNat = second.day.toNat ∧
    first.month.toNat = second.month.toNat ∧ first.year.toNat = second.year.toNat := by
  cases first
  cases second
  simp only [Date.mk.injEq, UInt32.toNat_inj]

/-- The month of a valid date. -/
theorem Valid.month_bounds {date : Date} (valid : date.Valid) :
    1 ≤ date.month.toNat ∧ date.month.toNat ≤ 12 :=
  ⟨UInt32.le_iff_toNat_le.mp valid.1, UInt32.le_iff_toNat_le.mp valid.2.1⟩

/-- The day number of a date, as a sum without a bound. -/
def number (date : Date) : Int :=
  365 * (toInt date.year - 1) + leapDays (marchYear (toInt date.year) date.month.toNat) +
    daysBeforeMonth 1 date.month.toNat + date.day.toNat

theorem dayNumber_eq {date : Date} (valid : date.Valid) : date.dayNumber = .ofInt date.number := by
  obtain ⟨first, last⟩ := valid.month_bounds
  have short := monthDays_le date.year.toNat date.month.toNat
  have inside := valid.dayLast
  rw [number, ← rdn_eq first last, dayNumber, rdnOf, @toInt_of_lt date.month (by omega),
    @toInt_of_lt date.day (by omega)]

/-- **A 29 February that `rdn` does not count**: that of the year 0, and those of the full centuries that
400 does not divide. -/
def LeftOut (date : Date) : Prop :=
  date.month = 2 ∧ date.day = 29 ∧ (date.year = 0 ∨ date.year % 100 = 0 ∧ date.year % 400 ≠ 0)

instance (date : Date) : Decidable date.LeftOut := inferInstanceAs (Decidable (_ ∧ _))

end Date

/-- The last year whose days `rdn` numbers without an overflow. -/
def lastYear : UInt32 := 5879489

/-- **Which dates `rdn` numbers without an overflow**: those up to the February behind the last year. -/
theorem Date.rdnDefined_iff {date : Date} (valid : date.Valid) (small : date.year.toNat < 2 ^ 31) :
    RdnDefined date.year date.month date.day ↔
      marchYear date.year.toNat date.month.toNat ≤ lastYear.toNat := by
  obtain ⟨first, last⟩ := valid.month_bounds
  have short := monthDays_le date.year.toNat date.month.toNat
  have inside := valid.dayLast
  have limit : lastYear.toNat = 5879489 := rfl
  unfold RdnDefined
  rw [toInt_of_lt small, @toInt_of_lt date.month (by omega),
    @toInt_of_lt date.day (by omega), limit]
  obtain ⟨year, is_year⟩ : ∃ year, year = marchYear date.year.toNat date.month.toNat := ⟨_, rfl⟩
  obtain ⟨month, is_month, low, high⟩ : ∃ month : Int,
      (if (date.month.toNat : Int) < 3 then ((date.year.toNat : Int) - 1, (date.month.toNat : Int) + 12)
        else ((date.year.toNat : Int), (date.month.toNat : Int))) = (year, month) ∧ 3 ≤ month ∧ month ≤ 14 := by
    rw [is_year, marchYear]
    by_cases winter : date.month.toNat < 3
    · exact ⟨_, by rw [if_pos (by omega), if_pos winter], by omega, by omega⟩
    · exact ⟨_, by rw [if_neg (by omega), if_neg winter], by omega, by omega⟩
  have counted : -1 ≤ year := by
    rw [is_year, marchYear]
    split_ifs <;> omega
  rw [← is_year]
  simp only [rdnResults, is_month, List.forall_mem_cons, List.not_mem_nil, false_imp_iff, implies_true,
    and_true]
  rw [Int.tdiv_eq_ediv_of_nonneg (show 0 ≤ 153 * month - 457 by omega)]
  rcases counted.eq_or_lt with rfl | counted
  · have rounded : Int.tdiv (-1) 4 = 0 ∧ Int.tdiv (-1) 100 = 0 ∧ Int.tdiv (-1) 400 = 0 := by decide
    rw [rounded.1, rounded.2.1, rounded.2.2]
    omega
  · simp only [Int.tdiv_eq_ediv_of_nonneg (show 0 ≤ year by omega)]
    omega

/-- A February has a leap day for `rdn`, where it has one for the handler and that is not left out. -/
theorem leapDays_succ {year : Int} (counted : 0 ≤ year) : leapDays year = leapDays (year - 1) +
    if year % 4 = 0 ∧ ¬ (year = 0 ∨ year % 100 = 0 ∧ year % 400 ≠ 0) then 1 else 0 := by
  unfold leapDays
  rcases counted.eq_or_lt with rfl | later
  · rfl
  · simp only [Int.tdiv_eq_ediv_of_nonneg counted,
      Int.tdiv_eq_ediv_of_nonneg (show 0 ≤ year - 1 by omega)]
    split_ifs <;> omega

namespace Date

/-- The comparisons of `LeftOut`, on numbers. -/
theorem leftOut_iff (date : Date) : date.LeftOut ↔ date.month.toNat = 2 ∧ date.day.toNat = 29 ∧
    (date.year.toNat = 0 ∨ date.year.toNat % 100 = 0 ∧ date.year.toNat % 400 ≠ 0) := by
  simp only [LeftOut, ← UInt32.toNat_inj, UInt32.toNat_mod, ne_eq, UInt32.toNat_ofNat]

/-- **A midnight adds one**, except behind a 29 February that is left out. -/
theorem number_nextDay {date : Date} (valid : date.Valid) (inRange : date.year ≤ lastYear) :
    date.nextDay.number = date.number + if date.LeftOut then 0 else 1 := by
  obtain ⟨first, last⟩ := valid.month_bounds
  have short := monthDays_le date.year.toNat date.month.toNat
  have inside := valid.dayLast
  rw [UInt32.le_iff_toNat_le, show lastYear.toNat = 5879489 from rfl] at inRange
  have year : toInt date.year = date.year.toNat := toInt_of_lt (by omega)
  simp only [leftOut_iff]
  rcases nextDay_cases valid with ⟨more, next⟩ | ⟨lastDay, ⟨more, next⟩ | ⟨december, next⟩⟩
  · have dayNext : (date.day + 1).toNat = date.day.toNat + 1 := toNat_succ_of_lt (by omega)
    have counted : ¬ (date.month.toNat = 2 ∧ date.day.toNat = 29 ∧ (date.year.toNat = 0 ∨
        date.year.toNat % 100 = 0 ∧ date.year.toNat % 400 ≠ 0)) := by
      rintro ⟨february, leapDay, -⟩
      rw [february, leapDay, monthDays] at more
      split_ifs at more <;> omega
    rw [next, if_neg counted]
    simp only [number, dayNext]
    omega
  · have monthNext : (date.month + 1).toNat = date.month.toNat + 1 := toNat_succ_of_lt (by omega)
    rw [next]
    simp only [number, monthNext, year, UInt32.toNat_one, daysBeforeMonth]
    by_cases february : date.month.toNat = 2
    · have leap := leapDays_succ (Int.natCast_nonneg date.year.toNat)
      have before : daysBeforeMonth 1 2 + monthDays 1 2 = 59 := rfl
      have january : daysBeforeMonth 1 2 = 31 := rfl
      rw [february, monthDays] at lastDay
      rw [february, before, january, marchYear, if_neg (by decide), marchYear, if_pos (by decide), leap,
        lastDay]
      split_ifs <;> omega
    · rw [if_neg fun leftOut => february leftOut.1, ← monthDays_eq february date.year.toNat, ← lastDay,
        show marchYear date.year.toNat (date.month.toNat + 1) =
          marchYear date.year.toNat date.month.toNat by unfold marchYear; split_ifs <;> omega]
      omega
  · have yearNext : toInt (date.year + 1) = date.year.toNat + 1 := by
      rw [toInt_of_lt] <;> rw [toNat_succ_of_lt (by omega)] <;> omega
    rw [december] at lastDay
    rw [next, december, if_neg (by omega)]
    simp only [number, yearNext, year, december, lastDay]
    have before : daysBeforeMonth 1 12 = 334 := rfl
    have january : daysBeforeMonth 1 1 = 0 := rfl
    have december : monthDays date.year.toNat 12 = 31 := rfl
    rw [before, UInt32.toNat_one, january, december, marchYear, if_pos (by decide), marchYear,
      if_neg (by decide), Int.add_sub_cancel]
    omega

/-! ### Runs of midnights -/

/-- The days of the handler's calendar in front of a date. -/
def days (date : Date) : Nat := dayOf date.year.toNat date.month.toNat date.day.toNat

theorem days_nextDay {date : Date} (valid : date.Valid) (inRange : date.year ≤ lastYear) :
    date.nextDay.days = date.days + 1 := by
  have positive : 1 ≤ date.day.toNat := UInt32.le_iff_toNat_le.mp valid.2.2.1
  obtain ⟨first, last⟩ := valid.month_bounds
  have short := monthDays_le date.year.toNat date.month.toNat
  have inside := valid.dayLast
  rw [UInt32.le_iff_toNat_le, show lastYear.toNat = 5879489 from rfl] at inRange
  rcases nextDay_cases valid with ⟨more, next⟩ | ⟨lastDay, ⟨more, next⟩ | ⟨december, next⟩⟩
  · have dayNext : (date.day + 1).toNat = date.day.toNat + 1 := toNat_succ_of_lt (by omega)
    rw [next]
    simp only [days, dayOf, dayNext]
    omega
  · have monthNext : (date.month + 1).toNat = date.month.toNat + 1 := toNat_succ_of_lt (by omega)
    rw [next]
    simp only [days, dayOf, monthNext, UInt32.toNat_one, daysBeforeMonth]
    omega
  · have yearNext : (date.year + 1).toNat = date.year.toNat + 1 := toNat_succ_of_lt (by omega)
    have whole : daysBeforeMonth date.year.toNat 12 + monthDays date.year.toNat 12 =
      yearDays date.year.toNat := daysBeforeMonth_thirteen _
    have january : daysBeforeMonth (date.year.toNat + 1) 1 = 0 := rfl
    rw [december] at lastDay
    rw [next]
    simp only [days, dayOf, yearNext, UInt32.toNat_one, january, december, daysBeforeYear]
    omega

/-- In the years that `rdn` numbers there are less days than an `unsigned int` holds. -/
theorem days_lt {date : Date} (valid : date.Valid) (inRange : date.year ≤ lastYear) :
    date.days + 1 < 2 ^ 32 := by
  have inside := valid.dayLast
  have positive : 1 ≤ date.day.toNat := UInt32.le_iff_toNat_le.mp valid.2.2.1
  have inYear := @daysBeforeMonth_lt date.year.toNat date.month.toNat (date.day.toNat - 1) (by omega)
  rw [UInt32.le_iff_toNat_le, show lastYear.toNat = 5879489 from rfl] at inRange
  have long : yearDays date.year.toNat ≤ 366 := by
    unfold yearDays
    split_ifs <;> decide
  rw [days, dayOf, daysBeforeYear_eq]
  omega

/-- **A run of midnights**: the days of the calendar count each of them, the day numbers all but those
behind the days that are left out. -/
theorem midnights_counted {date : Date} (valid : date.Valid) (midnights : Nat)
    (inRange : ∀ passed < midnights, (nextDay^[passed] date).year ≤ lastYear) :
    (nextDay^[midnights] date).Valid ∧ (nextDay^[midnights] date).days = date.days + midnights ∧
      (nextDay^[midnights] date).number + Nat.count (fun passed => (nextDay^[passed] date).LeftOut) midnights =
        date.number + midnights := by
  induction midnights with
  | zero => exact ⟨valid, rfl, by simp⟩
  | succ midnights ih =>
    obtain ⟨validNow, days, number⟩ := ih fun passed less => inRange passed (Nat.lt_succ_of_lt less)
    have now := inRange midnights (Nat.lt_succ_self _)
    rw [Function.iterate_succ_apply']
    refine ⟨nextDay_valid validNow, ?_, ?_⟩
    · rw [days_nextDay validNow now, days, Nat.add_assoc]
    · rw [number_nextDay validNow now, Nat.count_succ]
      split_ifs <;> push_cast <;> omega

/-- **The two calendars agree exactly when no 29 February that `rdn` leaves out is passed**: from a valid
date and over any number of midnights in the years `rdn` numbers, the difference of the day numbers is the
number of the midnights. -/
theorem midnights_counted_iff {date : Date} (valid : date.Valid) (midnights : Nat)
    (inRange : ∀ passed < midnights, (nextDay^[passed] date).year ≤ lastYear) :
    ((nextDay^[midnights] date).dayNumber - date.dayNumber).toNat = midnights ↔
      ∀ passed < midnights, ¬ (nextDay^[passed] date).LeftOut := by
  obtain ⟨validAfter, days, number⟩ := midnights_counted valid midnights inRange
  obtain ⟨missed, is_missed⟩ : ∃ missed,
      missed = Nat.count (fun passed => (nextDay^[passed] date).LeftOut) midnights := ⟨_, rfl⟩
  have few : missed ≤ midnights := is_missed ▸ Nat.count_le _
  rw [← is_missed] at number
  have bounded : midnights < 2 ^ 32 := by
    cases midnights with
    | zero => decide
    | succ before =>
      have started := midnights_counted valid before fun passed less =>
        inRange passed (Nat.lt_succ_of_lt less)
      have small := days_lt started.1 (inRange before (Nat.lt_succ_self _))
      omega
  have difference : ((nextDay^[midnights] date).dayNumber - date.dayNumber).toNat =
      midnights - missed := by
    rw [dayNumber_eq valid, dayNumber_eq validAfter, toNat_ofInt_sub]
    omega
  rw [difference, ← Nat.count_iff_forall_not, ← is_missed]
  omega

/-- From 28 February to 1 March of a leap year. -/
theorem midnights_counted_iff_leapDay :
    ((nextDay^[2] ⟨28, 2, 2016⟩).dayNumber - dayNumber ⟨28, 2, 2016⟩).toNat = 2 :=
  (midnights_counted_iff (by decide) 2 (by decide)).mpr (by decide)

/-- **The midnight behind 29 February 1900 does not count.** -/
theorem dayNumber_stays : ¬ ∀ date : Date, date.Valid → date.year ≤ lastYear →
    date.nextDay.dayNumber = date.dayNumber + 1 := by
  intro always
  exact absurd (always ⟨29, 2, 1900⟩ (by decide) (by decide)) (by decide)

end Date

end PrimoCore.Rtc
