import Mathlib.Data.Int.ConditionallyCompleteOrder
import Mathlib.Order.Monotone.Basic
import Mathlib.Tactic.IntervalCases
import OpenAduc.Sync.Due

namespace OpenAduc.Sync

/-- The first day of a year, as days since the start of 1970. -/
def dayFromYear (y : Int) : Int := 365 * (y - 1970) + (y - 1969) / 4 - (y - 1901) / 100 + (y - 1601) / 400

def isLeap (y : Int) : Bool := y % 4 = 0 ∧ (y % 100 ≠ 0 ∨ y % 400 = 0)

/-- How many days of a common year are before a month's first. -/
def daysBefore : Nat → Int
  | 0 => 0
  | 1 => 31
  | 2 => 59
  | 3 => 90
  | 4 => 120
  | 5 => 151
  | 6 => 181
  | 7 => 212
  | 8 => 243
  | 9 => 273
  | 10 => 304
  | _ => 334

/-- A month's first day. A month is its number from the start of year 0. -/
def monthStart (m : Int) : Int :=
  dayFromYear (m / 12) + daysBefore (m % 12).toNat + (if isLeap (m / 12) = true ∧ 2 ≤ m % 12 then 1 else 0)

def monthLength (m : Int) : Int := monthStart (m + 1) - monthStart m

/-- The year of a day, off from its mean by one at most. -/
def yearOf (day : Int) : Int :=
  let y := 1970 + 400 * day / 146097
  if day < dayFromYear y then y - 1 else if dayFromYear (y + 1) ≤ day then y + 1 else y

/-- The last month of a year, of its first so many after January, that has started by a day. -/
def monthFrom (year day : Int) : Nat → Int
  | 0 => 12 * year
  | k + 1 =>
    if monthStart (12 * year + (k + 1 : Nat)) ≤ day then 12 * year + (k + 1 : Nat)
    else monthFrom year day k

/-- The month a day is in. -/
def monthOf (day : Int) : Int := monthFrom (yearOf day) day 11

theorem dayFromYear_succ (y : Int) :
    dayFromYear (y + 1) = dayFromYear y + 365 + (if isLeap y then 1 else 0) := by
  simp only [dayFromYear, isLeap, decide_eq_true_eq]
  split <;> omega

/-- Years are 146097 days in 400. -/
theorem dayFromYear_mean (y : Int) :
    146097 * (y - 1970) - 600 ≤ 400 * dayFromYear y ∧ 400 * dayFromYear y ≤ 146097 * (y - 1970) + 600 := by
  unfold dayFromYear
  omega

/-- A day is in its year. -/
theorem yearOf_spec (day : Int) : dayFromYear (yearOf day) ≤ day ∧ day < dayFromYear (yearOf day + 1) := by
  have around : ∃ y, 1970 + 400 * day / 146097 = y ∧ dayFromYear (y - 1) ≤ day ∧
    day < dayFromYear (y + 2) := by
    refine ⟨_, rfl, ?_, ?_⟩
    · have := dayFromYear_mean (1970 + 400 * day / 146097 - 1)
      omega
    · have := dayFromYear_mean (1970 + 400 * day / 146097 + 2)
      omega
  obtain ⟨y, estimate, above, below⟩ := around
  unfold yearOf
  rw [estimate]
  dsimp only
  split
  next early =>
    have same : y - 1 + 1 = y := by omega
    exact ⟨above, by rwa [same]⟩
  next =>
    split
    next late =>
      have same : y + 1 + 1 = y + 2 := by omega
      exact ⟨late, by rwa [same]⟩
    next => omega

theorem monthStart_year (y : Int) : monthStart (12 * y) = dayFromYear y := by
  have year : 12 * y / 12 = y := by omega
  have first : 12 * y % 12 = 0 := by omega
  simp [monthStart, year, first, daysBefore]

/-- A month has from 28 to 31 days. -/
theorem monthLength_bounds (m : Int) : 28 ≤ monthLength m ∧ monthLength m ≤ 31 := by
  obtain ⟨y, k, small, rfl⟩ : ∃ (y : Int) (k : Nat), k < 12 ∧ m = 12 * y + k :=
    ⟨m / 12, (m % 12).toNat, by omega, by omega⟩
  have year : (12 * y + k) / 12 = y := by omega
  have month : (12 * y + k) % 12 = k := by omega
  by_cases december : k = 11
  · have next : 12 * y + k + 1 = 12 * (y + 1) := by omega
    rw [monthLength, next, monthStart_year, monthStart, year, month, dayFromYear_succ, december]
    by_cases leap : isLeap y = true <;> simp [leap, daysBefore]
  · have year' : (12 * y + k + 1) / 12 = y := by omega
    have month' : (12 * y + k + 1) % 12 = (k + 1 : Nat) := by omega
    rw [monthLength, monthStart, monthStart, year, month, year', month']
    have lengths : 28 ≤ daysBefore (k + 1) - daysBefore k ∧ daysBefore (k + 1) - daysBefore k ≤ 31 ∧
        (k = 1 → daysBefore (k + 1) - daysBefore k = 28) := by
      interval_cases k <;> simp_all [daysBefore]
    by_cases leap : isLeap y = true
    · simp only [leap, true_and, Int.toNat_natCast]
      split <;> split <;> omega
    · simp only [leap, Bool.false_eq_true, false_and, if_false, Int.toNat_natCast]
      omega

theorem monthStart_strictMono : StrictMono monthStart := by
  refine strictMono_int_of_lt_succ fun m => ?_
  have := monthLength_bounds m
  unfold monthLength at this
  omega

theorem monthFrom_spec {year day : Int} {k : Nat} (started : monthStart (12 * year) ≤ day)
    (ends : day < monthStart (12 * year + (k + 1 : Nat))) :
    monthStart (monthFrom year day k) ≤ day ∧ day < monthStart (monthFrom year day k + 1) := by
  induction k with
  | zero => exact ⟨started, by simpa [monthFrom] using ends⟩
  | succ k ih =>
    unfold monthFrom
    split
    next reached =>
      refine ⟨reached, ?_⟩
      have next : 12 * year + (k + 1 : Nat) + 1 = 12 * year + (k + 1 + 1 : Nat) := by omega
      rwa [next]
    next unreached => exact ih (by omega)

theorem monthOf_spec (day : Int) : monthStart (monthOf day) ≤ day ∧ day < monthStart (monthOf day + 1) := by
  obtain ⟨started, ends⟩ := yearOf_spec day
  have next : 12 * yearOf day + (11 + 1 : Nat) = 12 * (yearOf day + 1) := by omega
  exact monthFrom_spec (by rwa [monthStart_year]) (by rwa [next, monthStart_year])

theorem monthOf_eq {day m : Int} (started : monthStart m ≤ day) (ends : day < monthStart (m + 1)) :
    monthOf day = m := by
  obtain ⟨started', ends'⟩ := monthOf_spec day
  have le := monthStart_strictMono.lt_iff_lt.mp (started.trans_lt ends')
  have ge := monthStart_strictMono.lt_iff_lt.mp (started'.trans_lt ends)
  omega

/-- A day of the month past a month's end is in the next one. -/
theorem monthOf_overflow (m : Int) {day : Int} (first : 1 ≤ day) (last : day ≤ 31) :
    monthOf (monthStart m + (day - 1)) = if day ≤ monthLength m then m else m + 1 := by
  have here := monthLength_bounds m
  have next := monthLength_bounds (m + 1)
  unfold monthLength at here next ⊢
  split
  next fits => exact monthOf_eq (by omega) (by omega)
  next past => exact monthOf_eq (by omega) (by omega)

def MS_PER_DAY : Int := 86400000

/-- A time of day in milliseconds. -/
def sinceMidnight (time : ClockTime) : Int := ((time.1 * 60 + time.2.1) * 60 + time.2.2) * 1000

/-- A year from 0 to 99 is one of the 1900s where a date is put together from its parts. -/
def fullYear (y : Int) : Int := if 0 ≤ y ∧ y ≤ 99 then 1900 + y else y

/-- A zone with one offset from UTC the year round, in milliseconds. -/
structure FixedZone where
  offset : Int
  small : -MS_PER_DAY < offset ∧ offset < MS_PER_DAY

namespace FixedZone
variable (z : FixedZone)

def localDay (t : Int) : Int := (t + z.offset) / MS_PER_DAY

def msInDay (t : Int) : Int := (t + z.offset) % MS_PER_DAY

def instant (day ms : Int) : Int := day * MS_PER_DAY + ms - z.offset

def clockTime (t : Int) : ClockTime :=
  ((z.msInDay t / 3600000).toNat, (z.msInDay t / 60000 % 60).toNat, (z.msInDay t / 1000 % 60).toNat)

def month (t : Int) : Int := monthOf (z.localDay t)

def dayOfMonth (t : Int) : Int := z.localDay t - monthStart (z.month t) + 1

/-- The process's calendar in the zone. -/
def calendar (previousCronSlot : String → Int → Option Int) : LocalCalendar where
  clockTime := z.clockTime
  setClockTime t time := z.instant (z.localDay t) (sinceMidnight time)
  weekday t := ((z.localDay t + 4) % 7).toNat
  addDays t days := z.instant (z.localDay t + days) (z.msInDay t)
  addMonths t months := z.instant (monthStart (z.month t + months) + (z.dayOfMonth t - 1)) (z.msInDay t)
  year t := z.month t / 12
  month t := z.month t % 12
  dayOfMonth := z.dayOfMonth
  date year month day time :=
    z.instant (monthStart (12 * fullYear year + month) + (day - 1)) (sinceMidnight time)
  previousCronSlot

variable {z} {t day ms : Int}

theorem sinceMidnight_bounds (t : Int) :
    0 ≤ sinceMidnight (z.clockTime t) ∧ sinceMidnight (z.clockTime t) < MS_PER_DAY := by
  simp only [sinceMidnight, clockTime, msInDay, MS_PER_DAY]
  omega

theorem localDay_instant (midnight : 0 ≤ ms) (small : ms < MS_PER_DAY) :
    z.localDay (z.instant day ms) = day := by
  simp only [localDay, instant, MS_PER_DAY] at *
  omega

theorem msInDay_instant (midnight : 0 ≤ ms) (small : ms < MS_PER_DAY) :
    z.msInDay (z.instant day ms) = ms := by
  simp only [msInDay, instant, MS_PER_DAY] at *
  omega

theorem instant_localDay (t : Int) : z.instant (z.localDay t) (z.msInDay t) = t := by
  simp only [localDay, msInDay, instant, MS_PER_DAY]
  omega

theorem msInDay_bounds (t : Int) : 0 ≤ z.msInDay t ∧ z.msInDay t < MS_PER_DAY := by
  simp only [msInDay, MS_PER_DAY]
  omega

/-- Instants follow their days. -/
theorem instant_strictMono {days : Int → Int} (later : StrictMono days) (ms : Int) :
    StrictMono fun i => z.instant (days i) ms := by
  intro i j less
  have := later less
  simp only [instant, MS_PER_DAY]
  omega

theorem dayOfMonth_bounds (t : Int) : 1 ≤ z.dayOfMonth t ∧ z.dayOfMonth t ≤ monthLength (z.month t) := by
  have := monthOf_spec (z.localDay t)
  unfold dayOfMonth monthLength month
  omega

end FixedZone
end OpenAduc.Sync
