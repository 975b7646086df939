import Mathlib.Data.Int.Init
import Mathlib.Logic.Function.Iterate
import Mathlib.Tactic.IntervalCases
import RingTape.Calendar

/-!
# Day numbers are dates of the calendar

The Gregorian calendar is stated by what comes next: months have their lengths, a leap year
is one that is divisible by 4 but not by 100 unless by 400, and `next` and `previous` go
from a day to its neighbours.  The date of a day number is then reached from the first of
January 1970 by that many steps, forwards or backwards (`ofDaysSince1970`).

The date that is computed is found by division in years that start with March, so that a
leap day is the last day of its year.  A day is given by such a year and a day of it
(`exists_yearDay`), and the division recovers both (`ofMarchDay_eq`): the leap days before
a year are taken off by the days of a year, a century and a cycle, and what is left is less
than 365 days for each year (`yearOfCycle_eq`).  From there on the next day is the next day
of the same year, or the first of the year after it (`next_ofYearDay`); hence every day
number that is one larger is the next day, and the two dates agree by induction.

The year, the month and the day are computed in words of 32 bits.  `dateWords?` fails if a
difference of such words falls below zero, and it never does (`dateWords?_eq`).
-/

namespace RingTape

namespace Date

/-! ## The calendar -/

/-- A year with a leap day: divisible by 4, but not by 100 unless by 400. -/
def LeapYear (year : Int) : Prop :=
  4 ∣ year ∧ (¬ 100 ∣ year ∨ 400 ∣ year)

instance : DecidablePred LeapYear :=
  fun year => inferInstanceAs (Decidable (4 ∣ year ∧ (¬ 100 ∣ year ∨ 400 ∣ year)))

/-- The number of days of a month. -/
def monthLength (year : Int) (month : Nat) : Nat :=
  if month = 2 then
    if LeapYear year then 29 else 28
  else if month = 4 ∨ month = 6 ∨ month = 9 ∨ month = 11 then 30
  else 31

/-- The day after a date. -/
def next (date : Date) : Date :=
  if date.day < monthLength date.year date.month then { date with day := date.day + 1 }
  else if date.month < 12 then { date with month := date.month + 1, day := 1 }
  else { year := date.year + 1, month := 1, day := 1 }

/-- The day before a date. -/
def previous (date : Date) : Date :=
  if 1 < date.day then { date with day := date.day - 1 }
  else if 1 < date.month then
    { date with month := date.month - 1, day := monthLength date.year (date.month - 1) }
  else { year := date.year - 1, month := 12, day := 31 }

/-- **The date of a day number**: so many days after the first of January 1970, or before it
if the number is negative. -/
def ofDaysSince1970 : Int → Date
  | .ofNat days => next^[days] { year := 1970, month := 1, day := 1 }
  | .negSucc days => previous^[days + 1] { year := 1970, month := 1, day := 1 }

/-- There is such a day in the calendar. -/
structure Valid (date : Date) : Prop where
  month_pos : 1 ≤ date.month
  month_le : date.month ≤ 12
  day_pos : 1 ≤ date.day
  day_le : date.day ≤ monthLength date.year date.month

/-- A day is the one before the day after it. -/
theorem Valid.previous_next {date : Date} (h : date.Valid) : date.next.previous = date := by
  obtain ⟨hmonth, hmonth', hday, hday'⟩ := h
  cases date with
  | mk year month day =>
    dsimp only at *
    unfold next
    by_cases hwithin : day < monthLength year month
    · rw [if_pos hwithin, previous, if_pos (by dsimp only; omega)]
      rfl
    · obtain rfl : day = monthLength year month := by omega
      by_cases hyear : month < 12
      · rw [if_neg hwithin, if_pos hyear, previous, if_neg (by simp), if_pos (by dsimp only; omega)]
        rfl
      · obtain rfl : month = 12 := by omega
        rw [if_neg hwithin, if_neg hyear, previous, if_neg (by simp), if_neg (by simp)]
        simp [monthLength]

/-! ## Years that start with March -/

/-- The number of days of the year that starts with March of a year.  It ends with February
of the next. -/
def yearDays (year : Int) : Nat :=
  if LeapYear (year + 1) then 366 else 365

/-- The first of March of a year, counted in days from that of the year 0. -/
def firstMarch (year : Int) : Int :=
  365 * year + year / 4 - year / 100 + year / 400

/-- The months counted from March, as months of the calendar. -/
def monthOf (month : Nat) : Nat :=
  if month < 10 then month + 3 else month - 9

/-- The days from the first of March to the first of a month counted from March. -/
def monthStart (month : Nat) : Nat :=
  (153 * month + 2) / 5

/-- The year of the calendar in which a month of a year of March lies. -/
def yearOf (year : Int) (month : Nat) : Int :=
  year + if monthOf month ≤ 2 then 1 else 0

/-- The date so many days after the first of March of a year. -/
def ofYearDay (year : Int) (day : Nat) : Date :=
  let month := (5 * day + 2) / 153
  { year := yearOf year month, month := monthOf month, day := day - monthStart month + 1 }

variable {year : Int} {day month : Nat}

theorem yearDays_of_leap (h : LeapYear (year + 1)) : yearDays year = 366 :=
  if_pos h

theorem yearDays_of_not_leap (h : ¬ LeapYear (year + 1)) : yearDays year = 365 :=
  if_neg h

theorem le_yearDays (year : Int) : 365 ≤ yearDays year ∧ yearDays year ≤ 366 := by
  unfold yearDays
  split <;> omega

/-- **A year of March has its days** between one first of March and the next. -/
theorem firstMarch_succ (year : Int) : firstMarch (year + 1) = firstMarch year + yearDays year := by
  unfold firstMarch
  by_cases hleap : LeapYear (year + 1)
  · rw [yearDays_of_leap hleap]
    unfold LeapYear at hleap
    omega
  · rw [yearDays_of_not_leap hleap]
    unfold LeapYear at hleap
    omega

/-- Every day is one of a year. -/
theorem exists_yearDay (n : Int) : ∃ year day, day < yearDays year ∧ n = firstMarch year + day := by
  induction n using Int.induction_on with
  | zero => exact ⟨0, 0, by decide, rfl⟩
  | succ n ih =>
    obtain ⟨year, day, hday, hn⟩ := ih
    by_cases hwithin : day + 1 < yearDays year
    · exact ⟨year, day + 1, hwithin, by omega⟩
    · have hlength := le_yearDays (year + 1)
      have hsucc := firstMarch_succ year
      exact ⟨year + 1, 0, by omega, by omega⟩
  | pred n ih =>
    obtain ⟨year, day, hday, hn⟩ := ih
    by_cases hfirst : day = 0
    · have hlength := le_yearDays (year - 1)
      have hsucc := firstMarch_succ (year - 1)
      rw [Int.sub_add_cancel] at hsucc
      exact ⟨year - 1, yearDays (year - 1) - 1, by omega, by omega⟩
    · exact ⟨year, day - 1, by omega, by omega⟩

/-! ## Months of such a year -/

/-- The month of a day of the year is found by division. -/
theorem ofYearDay_of_month (hstart : monthStart month ≤ day) (hend : day < monthStart (month + 1)) :
    ofYearDay year day =
      { year := yearOf year month, month := monthOf month, day := day - monthStart month + 1 } := by
  have hmonth : (5 * day + 2) / 153 = month := by
    unfold monthStart at hstart hend
    omega
  rw [ofYearDay, hmonth]

/-- Every day of a year lies in one of its months. -/
theorem exists_month (hday : day < yearDays year) :
    ∃ month < 12, monthStart month ≤ day ∧ day < monthStart (month + 1) := by
  have hlength := le_yearDays year
  refine ⟨(5 * day + 2) / 153, by omega, ?_, ?_⟩
  · unfold monthStart
    omega
  · unfold monthStart
    omega

/-- **A month ends where the next one starts**, and the last one ends with the year. -/
theorem monthLength_eq (hmonth : month < 12) :
    monthLength (yearOf year month) (monthOf month) =
      min (monthStart (month + 1)) (yearDays year) - monthStart month := by
  have hlength := le_yearDays year
  by_cases hlast : month = 11
  · subst hlast
    have hyear : yearOf year 11 = year + 1 := rfl
    by_cases hleap : LeapYear (year + 1)
    · rw [hyear, yearDays_of_leap hleap]
      exact if_pos hleap
    · rw [hyear, yearDays_of_not_leap hleap]
      exact if_neg hleap
  · have hmin : min (monthStart (month + 1)) (yearDays year) = monthStart (month + 1) := by
      unfold monthStart
      omega
    rw [hmin]
    interval_cases month <;> simp_all [monthLength, monthOf, monthStart]

theorem valid_ofYearDay (hday : day < yearDays year) : (ofYearDay year day).Valid := by
  obtain ⟨month, hmonth, hstart, hend⟩ := exists_month hday
  rw [ofYearDay_of_month hstart hend]
  refine ⟨?_, ?_, ?_, ?_⟩
  · dsimp only
    unfold monthOf
    split <;> omega
  · dsimp only
    unfold monthOf
    split <;> omega
  · exact Nat.le_add_left 1 _
  · dsimp only
    rw [monthLength_eq hmonth]
    omega

/-- **The next day of a year**, or the first day of the year after it. -/
theorem next_ofYearDay (hday : day < yearDays year) : (ofYearDay year day).next =
    if day + 1 < yearDays year then ofYearDay year (day + 1) else ofYearDay (year + 1) 0 := by
  obtain ⟨month, hmonth, hstart, hend⟩ := exists_month hday
  rw [ofYearDay_of_month hstart hend, next]
  dsimp only
  rw [monthLength_eq hmonth]
  by_cases hwithin : day + 1 < min (monthStart (month + 1)) (yearDays year)
  · have hstart' : monthStart month ≤ day + 1 := Nat.le_succ_of_le hstart
    have hend' : day + 1 < monthStart (month + 1) := by omega
    rw [if_pos (by omega), if_pos (by omega), ofYearDay_of_month hstart' hend',
      Nat.sub_add_comm hstart]
  · rw [if_neg (by omega)]
    by_cases hlast : day + 1 < yearDays year
    · -- the day is the last of its month, and the year goes on
      have hnext : monthStart (month + 1) = day + 1 := by omega
      have hmonth' : month < 11 := by
        have hlength := le_yearDays year
        unfold monthStart at hnext
        omega
      have hinside : day + 1 < monthStart (month + 1 + 1) := by
        unfold monthStart at hnext ⊢
        omega
      rw [if_pos hlast, ofYearDay_of_month (Nat.le_of_eq hnext) hinside, hnext, Nat.sub_self]
      interval_cases month <;> simp [yearOf, monthOf]
    · -- the day is the last of the year, and of February
      have hlength := le_yearDays year
      obtain rfl : month = 11 := by
        unfold monthStart at hend
        omega
      rw [if_neg hlast]
      simp [ofYearDay, yearOf, monthOf, monthStart]

/-! ## The division -/

/-- **The leap days are taken off** and the years of 365 days are left. -/
theorem yearOfCycle_eq {year day : Nat} (hyear : year < 400) (hday : day < yearDays year) :
    yearOfCycle (365 * year + year / 4 - year / 100 + day) = year := by
  -- centuries, four years each, and what is left of the years
  obtain ⟨c, q, r, hc, hq, hr, rfl⟩ :
      ∃ c q r, c < 4 ∧ q < 25 ∧ r < 4 ∧ year = 100 * c + 4 * q + r :=
    ⟨year / 100, year % 100 / 4, year % 4, by omega, by omega, by omega, by omega⟩
  have hleap : day < 365 ∨ (day = 365 ∧ r = 3 ∧ (q < 24 ∨ c = 3)) := by
    by_cases hleap : LeapYear ((100 * c + 4 * q + r : Nat) + 1)
    · rw [yearDays_of_leap hleap] at hday
      unfold LeapYear at hleap
      omega
    · rw [yearDays_of_not_leap hleap] at hday
      omega
  obtain ⟨n, hn⟩ : ∃ n, n = 36524 * c + 1461 * q + 365 * r + day := ⟨_, rfl⟩
  have hdays : 365 * (100 * c + 4 * q + r) + (100 * c + 4 * q + r) / 4 -
      (100 * c + 4 * q + r) / 100 + day = n := by
    omega
  -- the last day of the cycle counts as a century and as a cycle
  have hcentury : n / 36524 = c + n / 146096 := by
    have hrest : 1461 * q + 365 * r + day < 36524 ∨ n = 146096 := by omega
    rcases hrest with hrest | hlast
    · omega
    · omega
  rw [hdays, yearOfCycle, hcentury]
  omega

/-- The cycle of a day, and the day of that cycle.  Years that are a number of cycles apart
have the same days. -/
theorem exists_yearOfCycle (hday : day < yearDays year) : ∃ y : Nat, (y : Int) = year % 400 ∧
    y < 400 ∧ day < yearDays y ∧ (firstMarch year + day) / cycleDays = year / 400 ∧
    ((firstMarch year + day) % cycleDays).toNat = 365 * y + y / 4 - y / 100 + day := by
  obtain ⟨y, hy⟩ : ∃ y : Nat, (y : Int) = year % 400 := ⟨(year % 400).toNat, by omega⟩
  have hyear : y < 400 := by omega
  have hsame : yearDays y = yearDays year := by
    unfold yearDays LeapYear
    congr 1
    rw [eq_iff_iff]
    omega
  have hlength := le_yearDays year
  obtain ⟨n, hn⟩ : ∃ n, n = 365 * y + y / 4 - y / 100 + day := ⟨_, rfl⟩
  have hfirst : firstMarch year + day = 146097 * (year / 400) + n := by
    have hfour : year / 4 = 100 * (year / 400) + y / 4 := by omega
    have hhundred : year / 100 = 4 * (year / 400) + y / 100 := by omega
    unfold firstMarch
    omega
  refine ⟨y, hy, hyear, hsame ▸ hday, ?_, ?_⟩
  · rw [hfirst, cycleDays]
    omega
  · rw [hfirst, cycleDays, ← hn]
    omega

/-- **The date of a day is found by division.** -/
theorem ofMarchDay_eq (hday : day < yearDays year) :
    ofMarchDay (firstMarch year + day) = ofYearDay year day := by
  obtain ⟨y, hy, hyear, hday', hcycle, hdayOfCycle⟩ := exists_yearOfCycle hday
  have hdayOfYear : 365 * y + y / 4 - y / 100 + day - (365 * y + y / 4 - y / 100) = day :=
    Nat.add_sub_cancel_left _ _
  have hwhole : (y : Int) + year / 400 * 400 = year := by omega
  unfold ofMarchDay
  dsimp only
  rw [hcycle, hdayOfCycle, yearOfCycle_eq hyear hday', hdayOfYear, hwhole]
  rfl

/-- Every day is one of the calendar. -/
theorem valid_ofMarchDay (n : Int) : (ofMarchDay n).Valid := by
  obtain ⟨year, day, hday, rfl⟩ := exists_yearDay n
  rw [ofMarchDay_eq hday]
  exact valid_ofYearDay hday

/-- **The date after a day is the next one.** -/
theorem ofMarchDay_succ (n : Int) : ofMarchDay (n + 1) = (ofMarchDay n).next := by
  obtain ⟨year, day, hday, rfl⟩ := exists_yearDay n
  rw [ofMarchDay_eq hday, next_ofYearDay hday]
  by_cases hwithin : day + 1 < yearDays year
  · rw [if_pos hwithin, ← ofMarchDay_eq hwithin]
    congr 1
    omega
  · have hlength := le_yearDays (year + 1)
    have hfirst : firstMarch year + day + 1 = firstMarch (year + 1) + (0 : Nat) := by
      rw [firstMarch_succ]
      omega
    rw [if_neg hwithin, hfirst, ofMarchDay_eq (by omega)]

/-- The date before a day is the previous one. -/
theorem ofMarchDay_pred (n : Int) : ofMarchDay (n - 1) = (ofMarchDay n).previous := by
  have hsucc := ofMarchDay_succ (n - 1)
  rw [Int.sub_add_cancel] at hsucc
  rw [hsucc, (valid_ofMarchDay (n - 1)).previous_next]

/-- **The dates of two counts of days agree**: from the start of 1970 by steps, and from the
first of March of the year 0 by division. -/
theorem ofDaysSince1970_eq (n : Int) : ofDaysSince1970 n = ofMarchDay (n + 719468) := by
  have hepoch : ofMarchDay 719468 = { year := 1970, month := 1, day := 1 } := by decide
  cases n with
  | ofNat days =>
    induction days with
    | zero => exact hepoch.symm
    | succ days ih =>
      have hlater : Int.ofNat (days + 1) + 719468 = Int.ofNat days + 719468 + 1 := by
        simp only [Int.ofNat_eq_natCast]
        omega
      rw [hlater, ofMarchDay_succ, ← ih, ofDaysSince1970, Function.iterate_succ_apply']
      rfl
  | negSucc days =>
    induction days with
    | zero =>
      have hbefore : Int.negSucc 0 + 719468 = 719468 - 1 := rfl
      rw [hbefore, ofMarchDay_pred, hepoch]
      rfl
    | succ days ih =>
      have hearlier : Int.negSucc (days + 1) + 719468 = Int.negSucc days + 719468 - 1 := by
        omega
      rw [hearlier, ofMarchDay_pred, ← ih, ofDaysSince1970, Function.iterate_succ_apply']
      rfl

/-! ## In words of 32 bits -/

/-- The difference of two words, unless it falls below zero. -/
def minus? (a b : UInt32) : Option UInt32 :=
  if b ≤ a then some (a - b) else none

/-- The year of a day within a cycle. -/
def yearWord? (day : UInt32) : Option UInt32 := do
  let days ← minus? day (day / 1460)
  let days ← minus? (days + day / 36524) (day / 146096)
  return days / 365

/-- The day of the year of a day within a cycle. -/
def dayOfYearWord? (day year : UInt32) : Option UInt32 := do
  let before ← minus? (365 * year + year / 4) (year / 100)
  minus? day before

/-- The month of the calendar. -/
def monthWord? (month : UInt32) : Option UInt32 :=
  if month < 10 then some (month + 3) else minus? month 9

/-- The month and the day of a day of the year. -/
def monthAndDayWords? (day : UInt32) : Option (UInt32 × UInt32) := do
  let month := (5 * day + 2) / 153
  let dayOfMonth ← minus? day ((153 * month + 2) / 5)
  let month ← monthWord? month
  return (month, dayOfMonth + 1)

/-- **The date of a day number in words of 32 bits**, unless a difference of such words falls
below zero on the way.  The cycle is a signed number. -/
def dateWords? (word : UInt64) : Option (UInt32 × UInt32 × UInt32) := do
  let days := (word + epochDay).toInt64.toInt
  let day := UInt32.ofNat (days % cycleDays).toNat
  let year ← yearWord? day
  let dayOfYear ← dayOfYearWord? day year
  let (month, dayOfMonth) ← monthAndDayWords? dayOfYear
  let year : Int := year.toNat + days / cycleDays * 400 + if month ≤ 2 then 1 else 0
  return (UInt32.ofInt year, month, dayOfMonth)

theorem minus?_eq_some {a b : UInt32} (h : b.toNat ≤ a.toNat) :
    ∃ difference, minus? a b = some difference ∧ difference.toNat = a.toNat - b.toNat :=
  ⟨a - b, if_pos (UInt32.le_iff_toNat_le.mpr h), UInt32.toNat_sub_of_le a b h⟩

theorem yearWord?_eq {day : UInt32} (hday : day.toNat < 146097) :
    ∃ year, yearWord? day = some year ∧ year.toNat = yearOfCycle day.toNat := by
  obtain ⟨first, hfirst, hvalue⟩ := minus?_eq_some (a := day) (b := day / 1460) (by
    rw [UInt32.toNat_div]
    exact Nat.div_le_self _ _)
  have hsum : (first + day / 36524).toNat = day.toNat - day.toNat / 1460 + day.toNat / 36524 := by
    rw [UInt32.toNat_add, hvalue, UInt32.toNat_div, UInt32.toNat_div]
    simp only [UInt32.reduceToNat]
    omega
  obtain ⟨second, hsecond, hvalue'⟩ :=
    minus?_eq_some (a := first + day / 36524) (b := day / 146096) (by
      rw [hsum, UInt32.toNat_div]
      simp only [UInt32.reduceToNat]
      omega)
  refine ⟨second / 365, ?_, ?_⟩
  · rw [yearWord?, hfirst]
    simp [hsecond]
  · rw [UInt32.toNat_div, hvalue', hsum, yearOfCycle, UInt32.toNat_div]
    rfl

theorem dayOfYearWord?_eq {word year : UInt32} {day : Nat} (hyear : year.toNat < 400)
    (hday : day < 366)
    (hword : word.toNat = 365 * year.toNat + year.toNat / 4 - year.toNat / 100 + day) :
    ∃ dayOfYear, dayOfYearWord? word year = some dayOfYear ∧ dayOfYear.toNat = day := by
  have hsum : (365 * year + year / 4).toNat = 365 * year.toNat + year.toNat / 4 := by
    rw [UInt32.toNat_add, UInt32.toNat_mul, UInt32.toNat_div]
    simp only [UInt32.reduceToNat]
    omega
  have hcenturies : (year / 100).toNat = year.toNat / 100 := UInt32.toNat_div _ _
  obtain ⟨before, hbefore, hvalue⟩ :=
    minus?_eq_some (a := 365 * year + year / 4) (b := year / 100) (by omega)
  obtain ⟨dayOfYear, hdayOfYear, hvalue'⟩ := minus?_eq_some (a := word) (b := before) (by omega)
  refine ⟨dayOfYear, ?_, by omega⟩
  rw [dayOfYearWord?, hbefore]
  exact hdayOfYear

theorem monthWord?_eq {word : UInt32} (hmonth : word.toNat < 12) :
    ∃ month, monthWord? word = some month ∧ month.toNat = monthOf word.toNat := by
  unfold monthWord? monthOf
  by_cases hearly : word < 10
  · have hearly' : word.toNat < 10 := UInt32.lt_iff_toNat_lt.mp hearly
    refine ⟨word + 3, if_pos hearly, ?_⟩
    rw [if_pos hearly', UInt32.toNat_add]
    simp only [UInt32.reduceToNat]
    omega
  · have hlate : ¬ word.toNat < 10 := fun h => hearly (UInt32.lt_iff_toNat_lt.mpr h)
    rw [if_neg hearly, if_neg hlate]
    exact minus?_eq_some (by
      simp only [UInt32.reduceToNat]
      omega)

theorem monthAndDayWords?_eq {word : UInt32} (hday : word.toNat < 366) :
    ∃ month dayOfMonth, monthAndDayWords? word = some (month, dayOfMonth) ∧
      month.toNat = monthOf ((5 * word.toNat + 2) / 153) ∧
      dayOfMonth.toNat = word.toNat - monthStart ((5 * word.toNat + 2) / 153) + 1 := by
  obtain ⟨month, hmonth⟩ : ∃ month, month = (5 * word + 2) / 153 := ⟨_, rfl⟩
  have hmonth' : month.toNat = (5 * word.toNat + 2) / 153 := by
    rw [hmonth, UInt32.toNat_div, UInt32.toNat_add, UInt32.toNat_mul]
    simp only [UInt32.reduceToNat]
    omega
  have hstart : ((153 * month + 2) / 5).toNat = monthStart month.toNat := by
    rw [UInt32.toNat_div, UInt32.toNat_add, UInt32.toNat_mul, monthStart]
    simp only [UInt32.reduceToNat]
    omega
  obtain ⟨elapsed, helapsed, hvalue⟩ :=
    minus?_eq_some (a := word) (b := (153 * month + 2) / 5) (by
      rw [hstart, monthStart]
      omega)
  have htwelve : month.toNat < 12 := by omega
  obtain ⟨calendar, hcalendar, hvalue'⟩ := monthWord?_eq htwelve
  refine ⟨calendar, elapsed + 1, ?_, ?_, ?_⟩
  · rw [monthAndDayWords?, ← hmonth, helapsed]
    simp [hcalendar]
  · rw [hvalue', hmonth']
  · rw [UInt32.toNat_add, hvalue, hstart, hmonth']
    simp only [UInt32.reduceToNat]
    omega

/-- **No difference falls below zero** on the way to a date, and the words are its year, its
month and its day. -/
theorem dateWords?_eq (word : UInt64) : ∃ year month day,
    dateWords? word = some (year, month, day) ∧
      year.toNat = (ofDayNumber word).yearField ∧
      month.toNat = (ofDayNumber word).month ∧ day.toNat = (ofDayNumber word).day := by
  obtain ⟨days, hdays⟩ : ∃ days, days = (word + epochDay).toInt64.toInt := ⟨_, rfl⟩
  obtain ⟨year, day, hday, hsplit⟩ := exists_yearDay days
  obtain ⟨y, hy, hyear, hday', hcycle, hdayOfCycle⟩ := exists_yearOfCycle hday
  have hdate : ofDayNumber word = ofYearDay year day := by
    rw [ofDayNumber, ← hdays, hsplit, ofMarchDay_eq hday]
  have hlength := le_yearDays y
  rw [← hsplit] at hcycle hdayOfCycle
  obtain ⟨dayWord, hdayWord⟩ : ∃ dayWord, dayWord = UInt32.ofNat (days % cycleDays).toNat :=
    ⟨_, rfl⟩
  have hdayWord' : dayWord.toNat = 365 * y + y / 4 - y / 100 + day := by
    rw [hdayWord, hdayOfCycle]
    exact UInt32.toNat_ofNat_of_lt' (Nat.lt_of_lt_of_le (m := 146097) (by omega) (by decide))
  have hcycleDay : dayWord.toNat < 146097 := by omega
  obtain ⟨yearWord, hyearWord, hyearWord'⟩ := yearWord?_eq hcycleDay
  rw [hdayWord', yearOfCycle_eq hyear hday'] at hyearWord'
  have hyearWord400 : yearWord.toNat < 400 := by omega
  have hday366 : day < 366 := by omega
  obtain ⟨rest, hrest, rfl⟩ :=
    dayOfYearWord?_eq hyearWord400 hday366 (hyearWord'.symm ▸ hdayWord')
  obtain ⟨month, dayOfMonth, hmonthAndDay, hmonth, hdayOfMonth⟩ :=
    monthAndDayWords?_eq hday366
  have hwhole : (y : Int) + year / 400 * 400 = year := by omega
  have hspring : month ≤ 2 ↔ month.toNat ≤ 2 := UInt32.le_iff_toNat_le
  refine ⟨UInt32.ofInt (yearOf year ((5 * rest.toNat + 2) / 153)), month, dayOfMonth,
    ?_, ?_, ?_, ?_⟩
  · rw [dateWords?]
    simp only [← hdays, ← hdayWord, hyearWord, hrest, hmonthAndDay, hcycle, hyearWord', hspring,
      hmonth, hwhole, Option.bind_eq_bind, Option.bind_some]
    rfl
  · have hfits (whole : Int) : (whole % 2 ^ 32).toNat < UInt32.size := by
      change (whole % 4294967296).toNat < 4294967296
      omega
    rw [hdate, UInt32.ofInt, UInt32.toNat_ofNat_of_lt' (hfits _)]
    rfl
  · rw [hmonth, hdate]
    rfl
  · rw [hdayOfMonth, hdate]
    rfl

/-- **Day numbers are dates of the calendar.**  A number of days, with the sign that its word
has, gives the date that is reached from the first of January 1970 by so many steps from a
day to the next or, if it is negative, to the previous one.  Only the sum with the days
from the year 0 to 1970 must not overflow.  The year is cut to 32 bits, no difference of words
falls below zero, and the month and the day are those of a date in the calendar. -/
theorem day_numbers_are_dates (word : UInt64) (hroom : word.toInt64.toInt + 719468 < 2 ^ 63) :
    ofDayNumber word = ofDaysSince1970 word.toInt64.toInt ∧
      ((ofDayNumber word).yearField : Int) =
        (ofDaysSince1970 word.toInt64.toInt).year % 2 ^ 32 ∧
      (∃ year month day, dateWords? word = some (year, month, day) ∧
        year.toNat = (ofDayNumber word).yearField ∧
        month.toNat = (ofDayNumber word).month ∧ day.toNat = (ofDayNumber word).day) ∧
      (ofDayNumber word).Valid := by
  have hsum : (word + epochDay).toInt64.toInt = word.toInt64.toInt + 719468 := by
    have hepoch : epochDay.toInt64.toInt = 719468 := by decide
    have hleast := word.toInt64.le_toInt
    rw [UInt64.toInt64_add, Int64.toInt_add, hepoch]
    exact Int.bmod_eq_of_le (by omega) (by omega)
  have hdate : ofDayNumber word = ofDaysSince1970 word.toInt64.toInt := by
    rw [ofDayNumber, hsum, ofDaysSince1970_eq]
  refine ⟨hdate, ?_, dateWords?_eq word, valid_ofMarchDay _⟩
  rw [hdate, yearField]
  omega

/-- February ends on the 29th in 2000, and on the 28th in 1900, before the count of days. -/
theorem last_days_of_february :
    ((11016 : UInt64).toInt64.toInt + 719468 < 2 ^ 63 ∧
      ofDaysSince1970 11016 = { year := 2000, month := 2, day := 29 } ∧
      ∃ year month day, dateWords? 11016 = some (year, month, day)) ∧
    ((-25509 : UInt64).toInt64.toInt + 719468 < 2 ^ 63 ∧
      ofDaysSince1970 (-25509) = { year := 1900, month := 2, day := 28 } ∧
      (ofDayNumber (-25509)).Valid) := by
  have hlater : (11016 : UInt64).toInt64.toInt + 719468 < 2 ^ 63 := by decide
  have hearlier : (-25509 : UInt64).toInt64.toInt + 719468 < 2 ^ 63 := by decide
  obtain ⟨hleap, -, ⟨year, month, day, hwords, -⟩, -⟩ := day_numbers_are_dates 11016 hlater
  obtain ⟨hcommon, -, -, hvalid⟩ := day_numbers_are_dates (-25509) hearlier
  have hleap' : ofDayNumber 11016 = { year := 2000, month := 2, day := 29 } := by decide
  have hcommon' : ofDayNumber (-25509) = { year := 1900, month := 2, day := 28 } := by decide
  exact ⟨⟨hlater, hleap.symm.trans hleap', year, month, day, hwords⟩,
    hearlier, hcommon.symm.trans hcommon', hvalid⟩

end Date

end RingTape
