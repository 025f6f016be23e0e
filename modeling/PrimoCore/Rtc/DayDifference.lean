/-
**Differences of day numbers.**

What `setAlarm` subtracts are day numbers of two days of a month, of two dates of the year 0 or of two years in
turn, and of any two dates. Each difference is compared with the way between the dates in the calendar.

* `rdnOf_sameMonth`, `rdnOf_nextMonth` — two days of a month, and the same day of the next one;
  `monthLength_eq_iff` — when that is the length of the month.
* `rdnOf_sameYear`, `rdnOf_nextYear`, `yearLength_eq_iff` — the same, for the dates of a year.
* `number_eq_days` — **the day number of a date** and the days of the calendar differ by the leap days that `rdn`
  leaves out.
* `number_eq_iff` — **two dates have one number** exactly when they are the same, or the leap day and 1 March of
  a year whose leap day is left out.
-/

import PrimoCore.Lib.LeapDates
import PrimoCore.Rtc.DayNumber

namespace PrimoCore.Rtc

open PrimoCore.Lib

/-- **A February that `rdn` gives another length than the handler does.** -/
def FebruaryDiffers (year : UInt32) : Prop :=
  leapDays (toInt year) - leapDays (toInt year - 1) ≠ if year % 4 = 0 then 1 else 0

instance (year : UInt32) : Decidable (FebruaryDiffers year) := inferInstanceAs (Decidable (_ ≠ _))

/-- Of the years an `int` holds, it is the year 0 and the full centuries that 400 does not divide. -/
theorem februaryDiffers_iff {year : UInt32} (small : year.toNat < 2 ^ 31) : FebruaryDiffers year ↔
    year.toNat = 0 ∨ year.toNat % 100 = 0 ∧ year.toNat % 400 ≠ 0 := by
  have leap : year % 4 = 0 ↔ year.toNat % 4 = 0 := by
    rw [← UInt32.toNat_inj, UInt32.toNat_mod]
    rfl
  unfold FebruaryDiffers
  simp only [leap]
  rw [toInt_of_lt small, leapDays_succ (Int.natCast_nonneg _)]
  split_ifs <;> omega

/-! ### In a month -/

/-- The day numbers of two days of a month. -/
theorem rdnOf_sameMonth {year month : UInt32} (first : 1 ≤ month.toNat) (last : month.toNat ≤ 12)
    {day other : UInt32} (small : day.toNat < 2 ^ 31) (otherSmall : other.toNat < 2 ^ 31) :
    (rdnOf year month day - rdnOf year month other).toNat =
      (((day.toNat : Int) - other.toNat) % 2 ^ 32).toNat := by
  unfold rdnOf
  rw [@toInt_of_lt month (by omega), toInt_of_lt small, toInt_of_lt otherSmall, rdn_eq first last,
    rdn_eq first last, toNat_ofInt_sub]
  congr 2
  omega

/-- **The length of a month**, as the difference of day numbers. -/
theorem rdnOf_nextMonth {year month : UInt32} (first : 1 ≤ month.toNat) (last : month.toNat ≤ 12)
    {day : UInt32} (small : day.toNat < 2 ^ 31) :
    ((rdnOf year (month + 1) day - rdnOf year month day).toNat : Int) = monthDays 1 month.toNat +
      if month.toNat = 2 then leapDays (toInt year) - leapDays (toInt year - 1) else 0 := by
  have next : (month + 1).toNat = month.toNat + 1 := toNat_succ_of_lt (by omega)
  have long := monthDays_le 1 month.toNat
  have step := leapDays_step (toInt year)
  unfold rdnOf
  rw [@toInt_of_lt month (by omega), @toInt_of_lt (month + 1) (by omega), toInt_of_lt small, next]
  by_cases december : month.toNat = 12
  · have whole : daysBeforeMonth 1 12 = 334 ∧ monthDays 1 12 = 31 := by decide
    rw [december]
    change ((rdn (toInt year) 13 day.toNat - _).toNat : Int) = _
    rw [rdn_thirteen, rdn_eq (by decide) (Nat.le_refl 12), toNat_ofInt_sub, marchYear, if_neg (by decide),
      if_neg (by decide), whole.1, whole.2]
    omega
  · rw [rdn_eq (Nat.le_add_left 1 _) (by omega), rdn_eq first last, toNat_ofInt_sub, daysBeforeMonth]
    unfold marchYear
    split_ifs <;> omega

/-- The February of the current year has the length that `rdn` gives it. -/
theorem monthLength_eq_iff {year : UInt32} {month : Nat} :
    ((monthDays 1 month : Int) + if month = 2 then leapDays (toInt year) - leapDays (toInt year - 1) else 0) =
        monthDays year.toNat month ↔
      ¬ (month = 2 ∧ FebruaryDiffers year) := by
  have leap : year % 4 = 0 ↔ year.toNat % 4 = 0 := by
    rw [← UInt32.toNat_inj, UInt32.toNat_mod]
    rfl
  unfold FebruaryDiffers
  by_cases february : month = 2
  · subst february
    have short : monthDays 1 2 = 28 := rfl
    have long : monthDays year.toNat 2 = if year.toNat % 4 = 0 then 29 else 28 := rfl
    simp only [short, long, leap, if_true, true_and, ne_eq, not_not]
    split_ifs <;> omega
  · rw [if_neg february, monthDays_eq february year.toNat]
    simp [february]

/-! ### In a year -/

/-- The years for which `rdn` does not overflow. -/
theorem RdnDefined.year_bounds {year month day : UInt32} (defined : RdnDefined year month day) :
    -5900000 ≤ toInt year ∧ toInt year ≤ 5900000 := by
  unfold RdnDefined rdnResults at defined
  split_ifs at defined <;>
    simp only [List.forall_mem_cons] at defined <;> omega

/-- The next year, as an `int`. -/
theorem RdnDefined.year_next {year month day : UInt32} (defined : RdnDefined year month day) :
    toInt (year + 1) = toInt year + 1 := by
  obtain ⟨low, high⟩ := defined.year_bounds
  have size := year.toNat_lt
  rw [toInt_eq] at low high ⊢
  rw [toInt_eq, UInt32.toNat_add, UInt32.toNat_one]
  split_ifs at low high ⊢ <;> omega

/-- The place of a date in a common year. -/
def Date.place (date : Date) : Nat := dayInYear date.month.toNat date.day.toNat

theorem Date.Valid.place_le {date : Date} (valid : date.Valid) : date.place ≤ 366 :=
  (Nat.le_add_right ..).trans
    (dayInYear_le (UInt32.le_iff_toNat_le.mp valid.2.2.1) (valid.dayLast.trans (monthDays_le_leap ..)))

/-- The day numbers of two dates in the year 0 differ like the places in a common year. -/
theorem rdnOf_sameYear {month other : UInt32} (first : 1 ≤ month.toNat) (last : month.toNat ≤ 12)
    (otherFirst : 1 ≤ other.toNat) (otherLast : other.toNat ≤ 12) {day otherDay : UInt32}
    (small : day.toNat < 2 ^ 31) (otherSmall : otherDay.toNat < 2 ^ 31) :
    (rdnOf 0 month day - rdnOf 0 other otherDay).toNat = (((dayInYear month.toNat day.toNat : Int) -
      dayInYear other.toNat otherDay.toNat) % 2 ^ 32).toNat := by
  have noLeapDay : ∀ month, leapDays (marchYear (toInt 0) month) = 0 := by
    intro month
    unfold marchYear
    split_ifs <;> rfl
  unfold rdnOf
  rw [@toInt_of_lt month (by omega), @toInt_of_lt other (by omega), toInt_of_lt small,
    toInt_of_lt otherSmall, rdn_eq first last, rdn_eq otherFirst otherLast, toNat_ofInt_sub, noLeapDay,
    noLeapDay]
  unfold dayInYear
  congr 2
  omega

/-- The day numbers of two dates at one place of consecutive years. -/
theorem rdnOf_nextYear {year month other : UInt32} (first : 1 ≤ month.toNat) (last : month.toNat ≤ 12)
    (otherFirst : 1 ≤ other.toNat) (otherLast : other.toNat ≤ 12) {day otherDay : UInt32}
    (small : day.toNat < 2 ^ 31) (otherSmall : otherDay.toNat < 2 ^ 31)
    (place : dayInYear month.toNat day.toNat = dayInYear other.toNat otherDay.toNat)
    (next : toInt (year + 1) = toInt year + 1) :
    ((rdnOf (year + 1) month day - rdnOf year other otherDay).toNat : Int) =
      (365 + leapDays (marchYear (toInt year + 1) month.toNat) -
        leapDays (marchYear (toInt year) other.toNat)) % 2 ^ 32 := by
  unfold rdnOf
  rw [@toInt_of_lt month (by omega), @toInt_of_lt other (by omega), toInt_of_lt small,
    toInt_of_lt otherSmall, next, rdn_eq first last, rdn_eq otherFirst otherLast, toNat_ofInt_sub]
  unfold dayInYear at place
  rw [Int.toNat_of_nonneg (Int.emod_nonneg _ (by decide))]
  congr 1
  omega

/-- The next year has the length that `rdn` gives it. -/
theorem yearLength_eq_iff (year : UInt32) :
    (365 : Int) + (leapDays (toInt year) - leapDays (toInt year - 1)) = yearDays year.toNat ↔
      ¬ FebruaryDiffers year := by
  have leap : year % 4 = 0 ↔ year.toNat % 4 = 0 := by
    rw [← UInt32.toNat_inj, UInt32.toNat_mod]
    rfl
  unfold FebruaryDiffers yearDays
  simp only [leap, ne_eq, not_not]
  split_ifs <;> omega

/-! ### From any date to any other -/

/-- The leap days of `rdn` grow, and not faster than the years. -/
theorem leapDays_mono {first later : Int} (ordered : first ≤ later) :
    leapDays first ≤ leapDays later ∧ leapDays later - leapDays first ≤ later - first := by
  induction later, ordered using Int.leInduction with
  | base => omega
  | succ later _ ih =>
    have step := leapDays_step (later + 1)
    rw [Int.add_sub_cancel] at step
    omega

namespace Date

/-- The leap days of the handler's calendar that `rdn` has left out up to a date. -/
def leftOut (date : Date) : Int :=
  (marchYear (toInt date.year) date.month.toNat).fdiv 4 -
    leapDays (marchYear (toInt date.year) date.month.toNat)

/-- The days of the calendar, as a sum. -/
theorem days_eq {date : Date} (valid : date.Valid) : (date.days : Int) = 365 * date.year.toNat +
    (marchYear date.year.toNat date.month.toNat).fdiv 4 + daysBeforeMonth 1 date.month.toNat +
    date.day.toNat := by
  have first : 1 ≤ date.day.toNat := UInt32.le_iff_toNat_le.mp valid.2.2.1
  have sum : date.days + 1 = _ := dayOf_eq date.year.toNat date.month.toNat first
  unfold dayInYear leapDayBefore at sum
  rw [Int.fdiv_eq_ediv_of_nonneg _ (by decide)]
  unfold marchYear
  split_ifs at sum ⊢ <;> omega

/-- **The day number and the days of the calendar** differ by the leap days that are left out, and by the way
an `int` holds the year. -/
theorem number_eq_days {date : Date} (valid : date.Valid) : date.number = date.days - 365 - date.leftOut -
    if date.year.toNat < 2 ^ 31 then 0 else 365 * 2 ^ 32 + 2 ^ 30 := by
  rw [days_eq valid, number, leftOut, toInt_eq]
  simp only [Int.fdiv_eq_ediv_of_nonneg _ (show (0 : Int) ≤ 4 by decide)]
  unfold marchYear
  split_ifs <;> omega

/-- Where `rdn` is defined, the sum is an `int`. -/
theorem number_bounds {date : Date} (valid : date.Valid)
    (defined : RdnDefined date.year date.month date.day) : -2 ^ 31 ≤ date.number ∧ date.number < 2 ^ 31 := by
  obtain ⟨first, last⟩ := valid.month_bounds
  have inside : date.day.toNat ≤ 31 := valid.dayLast.trans (monthDays_le ..)
  unfold RdnDefined at defined
  rw [@toInt_of_lt date.month (by omega), @toInt_of_lt date.day (by omega)] at defined
  rw [number, ← rdnResults_last first last]
  exact defined _ (rdnResults_last_mem ..)

/-- The day numbers are equal where the sums are. -/
theorem dayNumber_eq_iff {first second : Date} (valid : first.Valid) (otherValid : second.Valid)
    (defined : RdnDefined first.year first.month first.day)
    (otherDefined : RdnDefined second.year second.month second.day) :
    first.dayNumber - second.dayNumber = 0 ↔ first.number = second.number := by
  have bounds := number_bounds valid defined
  have otherBounds := number_bounds otherValid otherDefined
  rw [dayNumber_eq valid, dayNumber_eq otherValid, ← UInt32.toNat_inj, toNat_ofInt_sub, UInt32.toNat_zero]
  omega

/-- The day number, counted from one March to the next. -/
theorem number_eq_march {date : Date} (valid : date.Valid) :
    ∃ place : Int, place = date.place + (if date.month.toNat < 3 then 365 else 0) ∧
      60 ≤ place ∧ place ≤ 425 ∧ (date.month.toNat < 3 ↔ 366 ≤ place) ∧
      date.number = 365 * (marchYear (toInt date.year) date.month.toNat - 1) +
        leapDays (marchYear (toInt date.year) date.month.toNat) + place := by
  obtain ⟨first, last⟩ := valid.month_bounds
  have positive : 1 ≤ date.day.toNat := UInt32.le_iff_toNat_le.mp valid.2.2.1
  have longest := valid.dayLast.trans (monthDays_le_leap ..)
  have inYear := dayInYear_le positive longest
  refine ⟨_, rfl, ?_⟩
  unfold number Date.place
  by_cases winter : date.month.toNat < 3
  · have early := dayInYear_le_march first winter longest
    rw [if_pos winter, marchYear, if_pos winter]
    unfold dayInYear at early ⊢
    omega
  · have late := march_le_dayInYear (Nat.le_of_not_lt winter) positive
    rw [if_neg winter, marchYear, if_neg winter]
    rw [leapDayBefore, if_pos ⟨Nat.le_of_not_lt winter, rfl⟩] at inYear
    unfold dayInYear at late inYear ⊢
    omega

/-- 29 February and 1 March of a year whose leap day `rdn` leaves out. -/
def Confused (date now : Date) : Prop :=
  date.year = now.year ∧ (date.month = 2 ∧ date.day = 29) ∧ (now.month = 3 ∧ now.day = 1) ∧
    FebruaryDiffers now.year

/-- One day number in two years, from one March to the next: the leap day and 1 March. -/
theorem confused_of_lt {first second : Date} (valid : first.Valid) (otherValid : second.Valid)
    (same : first.number = second.number)
    (less : marchYear (toInt first.year) first.month.toNat < marchYear (toInt second.year) second.month.toNat) :
    Confused first second := by
  obtain ⟨place, is_place, low, high, winter, number⟩ := number_eq_march valid
  obtain ⟨other, is_other, otherLow, otherHigh, otherWinter, otherNumber⟩ := number_eq_march otherValid
  have positive : 1 ≤ first.day.toNat := UInt32.le_iff_toNat_le.mp valid.2.2.1
  have otherPositive : 1 ≤ second.day.toNat := UInt32.le_iff_toNat_le.mp otherValid.2.2.1
  have longest := valid.dayLast.trans (monthDays_le_leap ..)
  have otherLongest := otherValid.dayLast.trans (monthDays_le_leap ..)
  have mono := leapDays_mono (show _ ≤ _ from Int.le_of_lt less)
  have next : marchYear (toInt second.year) second.month.toNat =
      marchYear (toInt first.year) first.month.toNat + 1 := by omega
  have last : place = 425 ∧ other = 60 ∧ leapDays (marchYear (toInt second.year) second.month.toNat) =
      leapDays (marchYear (toInt first.year) first.month.toNat) := by omega
  have isWinter : first.month.toNat < 3 := winter.mpr (by omega)
  have isMarch : ¬ second.month.toNat < 3 := mt otherWinter.mp (by omega)
  rw [if_pos isWinter] at is_place
  rw [if_neg isMarch] at is_other
  have leapDay : first.month.toNat = 2 ∧ first.day.toNat = 29 := by
    have march : dayInYear 2 29 = 60 := by decide
    have there : dayInYear first.month.toNat first.day.toNat = dayInYear 2 29 := by
      rw [march]
      change _ = (dayInYear first.month.toNat first.day.toNat : Int) + 365 at is_place
      omega
    rcases (dayInYear_eq_iff positive longest (by decide) (by decide)).mp there with same | other | other <;>
      omega
  have march : second.month.toNat = 3 ∧ second.day.toNat = 1 := by
    have march : dayInYear 3 1 = 60 := by decide
    have there : dayInYear second.month.toNat second.day.toNat = dayInYear 3 1 := by
      rw [march]
      change _ = (dayInYear second.month.toNat second.day.toNat : Int) + 0 at is_other
      omega
    rcases (dayInYear_eq_iff otherPositive otherLongest (by decide) (by decide)).mp there with
      same | other | other <;> omega
  rw [leapDay.1, march.1, marchYear, marchYear, if_neg (by decide), if_pos (by decide)] at next last
  have sameYear : first.year = second.year := toInt_inj (by omega)
  have leap : second.year % 4 = 0 := by
    have has := valid.dayLast
    rw [leapDay.1, leapDay.2, @has_date_iff _ _ 2 (by decide)] at has
    rw [← UInt32.toNat_inj, UInt32.toNat_mod, ← sameYear]
    exact has.resolve_right fun common => common ⟨rfl, rfl⟩
  refine ⟨sameYear, ⟨UInt32.toNat_inj.mp leapDay.1, UInt32.toNat_inj.mp leapDay.2⟩,
    ⟨UInt32.toNat_inj.mp march.1, UInt32.toNat_inj.mp march.2⟩, ?_⟩
  unfold FebruaryDiffers
  rw [if_pos leap]
  rw [sameYear] at last
  omega

/-- What is confused has one day number. -/
theorem number_of_confused {first second : Date} (valid : first.Valid)
    (confused : Confused first second) : first.number = second.number := by
  obtain ⟨sameYear, ⟨february, leapDay⟩, ⟨march, day⟩, differs⟩ := confused
  have leap : second.year % 4 = 0 := by
    have has := valid.dayLast
    rw [february, leapDay, has_date_iff (by decide)] at has
    rw [← UInt32.toNat_inj, UInt32.toNat_mod, ← sameYear]
    exact has.resolve_right fun common => common ⟨rfl, rfl⟩
  have step := leapDays_step (toInt second.year)
  have place : daysBeforeMonth 1 2 + 29 = 60 ∧ daysBeforeMonth 1 3 + 1 = 60 := by decide
  rw [FebruaryDiffers, if_pos leap] at differs
  unfold number
  rw [sameYear, february, leapDay, march, day]
  change 365 * (toInt second.year - 1) + leapDays (toInt second.year - 1) + (daysBeforeMonth 1 2 : Int) +
    (29 : Nat) = 365 * (toInt second.year - 1) + leapDays (toInt second.year) + (daysBeforeMonth 1 3 : Int) +
    (1 : Nat)
  omega

/-- **Two dates with one day number** are the same, or the leap day and 1 March of a year whose leap day `rdn`
leaves out. -/
theorem number_eq_iff {first second : Date} (valid : first.Valid) (otherValid : second.Valid) :
    first.number = second.number ↔
      first = second ∨ Confused first second ∨ Confused second first := by
  constructor
  · intro same
    rcases Int.lt_trichotomy (marchYear (toInt first.year) first.month.toNat)
      (marchYear (toInt second.year) second.month.toNat) with less | equal | greater
    · exact .inr (.inl (confused_of_lt valid otherValid same less))
    · obtain ⟨place, is_place, low, high, winter, number⟩ := number_eq_march valid
      obtain ⟨other, is_other, otherLow, otherHigh, otherWinter, otherNumber⟩ := number_eq_march otherValid
      rw [equal] at number
      have places : place = other := by omega
      rw [places] at winter is_place
      have season : first.month.toNat < 3 ↔ second.month.toNat < 3 := winter.trans otherWinter.symm
      simp only [season] at is_place
      have sameYear : first.year = second.year := by
        unfold marchYear at equal
        simp only [season] at equal
        exact toInt_inj (by split_ifs at equal <;> omega)
      have samePlace : first.place = second.place := by omega
      rcases (dayInYear_eq_iff (UInt32.le_iff_toNat_le.mp valid.2.2.1)
        (valid.dayLast.trans (monthDays_le_leap ..)) (UInt32.le_iff_toNat_le.mp otherValid.2.2.1)
        (otherValid.dayLast.trans (monthDays_le_leap ..))).mp samePlace with ⟨month, day⟩ | apart | apart
      · exact .inl ((Date.eq_iff _ _).mpr ⟨day, month, congrArg _ sameYear⟩)
      · omega
      · omega
    · exact .inr (.inr (confused_of_lt otherValid valid same.symm greater))
  · rintro (rfl | confused | confused)
    · rfl
    · exact number_of_confused valid confused
    · exact (number_of_confused otherValid confused).symm

/-- A date lies in its year. -/
theorem days_bounds {date : Date} (valid : date.Valid) :
    365 * date.year.toNat + (date.year.toNat + 3) / 4 ≤ date.days ∧
      date.days < 365 * (date.year.toNat + 1) + (date.year.toNat + 4) / 4 := by
  have inYear := dayOf_lt (UInt32.le_iff_toNat_le.mp valid.2.2.1) valid.dayLast
  have start : daysBeforeYear date.year.toNat ≤ date.days := Nat.le_add_right ..
  rw [daysBeforeYear_eq] at inYear start
  exact ⟨start, inYear⟩

/-- Two dates that are near to each other lie in years that an `int` holds in one way, and `rdn` leaves out
few leap days in between. -/
theorem leftOut_near {first second : Date} (valid : first.Valid) (otherValid : second.Valid)
    (defined : RdnDefined first.year first.month first.day)
    (otherDefined : RdnDefined second.year second.month second.day) (ordered : second.days ≤ first.days)
    (near : first.days ≤ second.days + 49711) :
    (first.year.toNat < 2 ^ 31 ↔ second.year.toNat < 2 ^ 31) ∧
      -1000 ≤ first.leftOut - second.leftOut ∧ first.leftOut - second.leftOut ≤ 1000 := by
  obtain ⟨low, high⟩ := days_bounds valid
  obtain ⟨otherLow, otherHigh⟩ := days_bounds otherValid
  have bounds := defined.year_bounds
  have otherBounds := otherDefined.year_bounds
  have years : first.year.toNat ≤ second.year.toNat + 137 ∧ second.year.toNat ≤ first.year.toNat + 1 := by
    omega
  have half : first.year.toNat < 2 ^ 31 ↔ second.year.toNat < 2 ^ 31 := by
    rw [toInt_eq] at bounds otherBounds
    split_ifs at bounds otherBounds <;> omega
  refine ⟨half, ?_⟩
  have apart : toInt first.year ≤ toInt second.year + 137 ∧ toInt second.year ≤ toInt first.year + 1 := by
    rw [toInt_eq, toInt_eq]
    simp only [half]
    split_ifs <;> omega
  have marchApart : marchYear (toInt first.year) first.month.toNat ≤
      marchYear (toInt second.year) second.month.toNat + 138 ∧
      marchYear (toInt second.year) second.month.toNat ≤
        marchYear (toInt first.year) first.month.toNat + 2 := by
    unfold marchYear
    split_ifs <;> omega
  unfold leftOut
  simp only [Int.fdiv_eq_ediv_of_nonneg _ (show (0 : Int) ≤ 4 by decide)]
  rcases Int.le_total (marchYear (toInt first.year) first.month.toNat)
    (marchYear (toInt second.year) second.month.toNat) with less | more
  · have mono := leapDays_mono less
    omega
  · have mono := leapDays_mono more
    omega

end Date

end PrimoCore.Rtc
