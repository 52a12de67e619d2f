import OpenAduc.Dates.Iso
import OpenAduc.Lib.Bisection

namespace OpenAduc.Dates
open Sync (MS_PER_DAY monthStart monthLength monthOf monthOf_spec monthStart_strictMono fullYear)
open Bisection (search Lands search_change search_bounds search_stuck)

def MINUTE_MS : Int := 60000

/-- A time zone: how far its clocks are ahead of UTC at each instant, in whole seconds and less than a day. -/
structure Zone where
  offset : Int → Int
  seconds : ∀ t, offset t % 1000 = 0
  small : ∀ t, -MS_PER_DAY < offset t ∧ offset t < MS_PER_DAY

/-- A date as the schemas accept it. -/
structure CalendarDate where
  year : Nat
  month : Nat
  day : Nat
  year_lt : year < 10000
  real : RealDate year month day

structure TimeOfDay where
  hour : Nat
  minute : Nat
  hour_lt : hour < 24
  minute_lt : minute < 60

def TimeOfDay.ms (time : TimeOfDay) : Int := (time.hour * 60 + time.minute) * MINUTE_MS

/-- A year as a numeric year part gives it, without its era. -/
def shownYear (y : Int) : Int := if 0 < y then y else 1 - y

/-- What the zone's clocks show at an instant, counted as if it were UTC. -/
def Zone.clock (z : Zone) (t : Int) : Int := t + z.offset t

/-- The zone's offset from UTC at an instant: what its clocks show, through the parts of a format
and `Date.UTC`. -/
def Zone.offsetAt (z : Zone) (instant : Int) : Int :=
  let day := z.clock instant / MS_PER_DAY
  let second := z.clock instant % MS_PER_DAY / 1000
  let asWall := dateUTC (shownYear (yearOfDay day)) (monthOfDay day) (dayOfMonth day) +
    ((second / 3600 * 60 + second / 60 % 60) * 60 + second % 60) * 1000
  asWall - instant

/-- The instants a clock time is at the offsets of the day before and the day after. -/
def Zone.around (z : Zone) (wall : Int) : List Int :=
  [z.offsetAt (wall - MS_PER_DAY), z.offsetAt (wall + MS_PER_DAY)].eraseDups.map fun o => wall - o

/-- `Date.UTC` of a date and a time. -/
def wallOf (date : CalendarDate) (time : TimeOfDay) : Int := dateUTC date.year date.month date.day + time.ms

/-- None when the search for a change takes longer than the fuel. -/
def zonedDateTime (date : CalendarDate) (time : TimeOfDay) (timeZone : Zone) (fuel : Nat) : Option Int :=
  let wall := wallOf date time
  let readings := (timeZone.around wall).filter fun t => t + timeZone.offsetAt t = wall
  match readings.min? with
  | some first => some first
  | none =>
    -- Skipped: the clocks changed between these two.
    (timeZone.around wall).min?.bind fun lo =>
      (timeZone.around wall).max?.bind fun hi =>
        let before := timeZone.offsetAt lo
        search MINUTE_MS (fun mid => timeZone.offsetAt mid = before) fuel lo hi

/-- When a class starts: at one instant, or at a time of day on each person's start date. -/
inductive ClassStart
  | fixed (startsAt : Int)
  | startDate (time : TimeOfDay) (timeZone : Zone)

def classStartOf (start : ClassStart) (startDate : Option CalendarDate) (fuel : Nat) : Option (Option Int) :=
  match start, startDate with
  | .fixed startsAt, _ => some (some startsAt)
  | .startDate time timeZone, some date => (zonedDateTime date time timeZone fuel).map some
  | .startDate _ _, none => some none

/-- What the clocks are asked to show. -/
def asked (date : CalendarDate) (time : TimeOfDay) : Int :=
  dayNumber date.year date.month date.day * MS_PER_DAY + time.ms

theorem yearOfDay_ge {y day : Int} (started : dayNumber y 1 1 ≤ day) : y ≤ yearOfDay day := by
  obtain ⟨-, ends⟩ := monthOf_spec day
  have start : monthStart (12 * y) ≤ day := by simpa [dayNumber] using started
  have month := monthStart_strictMono.lt_iff_lt.mp (start.trans_lt ends)
  unfold yearOfDay
  omega

/-- A year of three digits or more goes through a format and `Date.UTC` as it is. -/
theorem dateUTC_shownYear {day : Int} (late : dayNumber 100 1 1 ≤ day) :
    dateUTC (shownYear (yearOfDay day)) (monthOfDay day) (dayOfMonth day) = day * MS_PER_DAY := by
  have years := yearOfDay_ge late
  have shown : shownYear (yearOfDay day) = yearOfDay day := by
    unfold shownYear
    exact if_pos (by omega)
  have full : fullYear (yearOfDay day) = yearOfDay day := by
    unfold fullYear
    exact if_neg (by omega)
  rw [dateUTC, shown, full, (realDate_of_day day).2]

variable {z : Zone} {t wall c o1 o2 : Int}

theorem offsetAt_eq (whole : t % 1000 = 0) (late : dayNumber 100 1 1 * MS_PER_DAY ≤ z.clock t) :
    z.offsetAt t = z.offset t := by
  have seconds := z.seconds t
  have days : dayNumber 100 1 1 ≤ z.clock t / MS_PER_DAY := by
    unfold MS_PER_DAY at late ⊢
    omega
  simp only [Zone.offsetAt, dateUTC_shownYear days]
  unfold Zone.clock MS_PER_DAY
  omega

/-- From a day before a clock time that is two days into year 100 or later, the format shows the
offset as it is. -/
theorem offsetAt_late (late : dayNumber 100 1 3 * MS_PER_DAY ≤ wall) (whole : t % 1000 = 0)
    (near : wall - MS_PER_DAY ≤ t) : z.offsetAt t = z.offset t := by
  have small := z.small t
  have days : dayNumber 100 1 3 = dayNumber 100 1 1 + 2 := by decide
  rw [days] at late
  refine offsetAt_eq whole ?_
  unfold Zone.clock
  unfold MS_PER_DAY at *
  omega

/-- The zone changes once at most within a day of a clock time taken for UTC. -/
structure Zone.Window (z : Zone) (wall c o1 o2 : Int) : Prop where
  inside : wall - MS_PER_DAY < c ∧ c ≤ wall + MS_PER_DAY
  before : ∀ t, wall - MS_PER_DAY ≤ t → t < c → z.offset t = o1
  after : ∀ t, c ≤ t → t ≤ wall + MS_PER_DAY → z.offset t = o2

/-- What is asked of an answer: the first instant with the clock time, or the change where there is none. -/
structure Zone.Answer (z : Zone) (wall c r : Int) : Prop where
  first : (∃ t, z.clock t = wall) → z.clock r = wall ∧ ∀ t, z.clock t = wall → r ≤ t
  skipped : (¬∃ t, z.clock t = wall) → r = c

theorem Zone.Window.small (window : z.Window wall c o1 o2) :
    (-MS_PER_DAY < o1 ∧ o1 < MS_PER_DAY) ∧ -MS_PER_DAY < o2 ∧ o2 < MS_PER_DAY := by
  obtain ⟨after, before⟩ := window.inside
  have first := z.small (wall - MS_PER_DAY)
  have last := z.small (wall + MS_PER_DAY)
  rw [window.before _ le_rfl after] at first
  rw [window.after _ before le_rfl] at last
  exact ⟨first, last⟩

/-- Only the two readings can have the clock time. -/
theorem Zone.Window.clock_eq_iff (window : z.Window wall c o1 o2) :
    z.clock t = wall ↔ (t = wall - o1 ∧ t < c) ∨ (t = wall - o2 ∧ c ≤ t) := by
  obtain ⟨first, last⟩ := window.small
  have small := z.small t
  unfold Zone.clock
  constructor
  · intro shows
    obtain under | beyond := Int.lt_or_le t c
    · rw [window.before t (by omega) under] at shows
      exact .inl ⟨by omega, under⟩
    · rw [window.after t beyond (by omega)] at shows
      exact .inr ⟨by omega, beyond⟩
  · rintro (⟨rfl, under⟩ | ⟨rfl, beyond⟩)
    · rw [window.before _ (by omega) under]
      omega
    · rw [window.after _ beyond (by omega)]
      omega

/-- A clock time in whole minutes, two days into year 100 or later, whose window the format shows as it is. -/
structure Plain (wall : Int) : Prop where
  minutes : wall % MINUTE_MS = 0
  late : dayNumber 100 1 3 * MS_PER_DAY ≤ wall

theorem Zone.Window.offsetAt_eq (window : z.Window wall c o1 o2) (plain : Plain wall) (whole : t % 1000 = 0)
    (near : wall - MS_PER_DAY ≤ t ∧ t ≤ wall + MS_PER_DAY) : z.offsetAt t = if t < c then o1 else o2 := by
  rw [offsetAt_late plain.late whole near.1]
  split
  next under => exact window.before t near.1 under
  next beyond => exact window.after t (by omega) near.2

theorem Zone.Window.seconds (window : z.Window wall c o1 o2) : o1 % 1000 = 0 ∧ o2 % 1000 = 0 := by
  obtain ⟨after, before⟩ := window.inside
  have first := z.seconds (wall - MS_PER_DAY)
  have last := z.seconds (wall + MS_PER_DAY)
  rw [window.before _ le_rfl after] at first
  rw [window.after _ before le_rfl] at last
  exact ⟨first, last⟩

theorem around_eq (z : Zone) (wall : Int) {a b : Int} (before : z.offsetAt (wall - MS_PER_DAY) = a)
    (after : z.offsetAt (wall + MS_PER_DAY) = b) :
    z.around wall = if b = a then [wall - a] else [wall - a, wall - b] := by
  unfold Zone.around
  rw [before, after]
  split <;> simp_all [List.eraseDups_cons]

theorem mem_around {a b : Int} (before : z.offsetAt (wall - MS_PER_DAY) = a)
    (after : z.offsetAt (wall + MS_PER_DAY) = b) : t ∈ z.around wall ↔ t = wall - a ∨ t = wall - b := by
  rw [around_eq z wall before after]
  split
  next same => simp [same]
  next => simp

theorem around_min {a b : Int} (before : z.offsetAt (wall - MS_PER_DAY) = a)
    (after : z.offsetAt (wall + MS_PER_DAY) = b) :
    (z.around wall).min? = some (min (wall - a) (wall - b)) := by
  rw [around_eq z wall before after]
  split
  next same => simp [same]
  next => simp [List.min?_cons]

theorem around_max {a b : Int} (before : z.offsetAt (wall - MS_PER_DAY) = a)
    (after : z.offsetAt (wall + MS_PER_DAY) = b) :
    (z.around wall).max? = some (max (wall - a) (wall - b)) := by
  rw [around_eq z wall before after]
  split
  next same => simp [same]
  next => simp [List.max?_cons]

theorem Zone.Window.offsets (window : z.Window wall c o1 o2) (plain : Plain wall) :
    z.offsetAt (wall - MS_PER_DAY) = o1 ∧ z.offsetAt (wall + MS_PER_DAY) = o2 := by
  have inside := window.inside
  have minutes := plain.minutes
  have day : MS_PER_DAY % 1000 = 0 := by decide
  have seconds : wall % 1000 = 0 := by
    unfold MINUTE_MS at minutes
    omega
  constructor
  · rw [window.offsetAt_eq plain (by omega) (by omega), if_pos inside.1]
  · rw [window.offsetAt_eq plain (by omega) (by omega), if_neg (by omega)]

/-- Within a day of one change, an instant reads as the wall-clock time just where its own offset
says so. -/
theorem Zone.Window.mem_readings (window : z.Window wall c o1 o2) (plain : Plain wall) :
    t ∈ (z.around wall).filter (fun t => t + z.offsetAt t = wall) ↔ z.clock t = wall := by
  obtain ⟨before, after⟩ := window.offsets plain
  obtain ⟨first, last⟩ := window.small
  obtain ⟨whole1, whole2⟩ := window.seconds
  have minutes := plain.minutes
  have seconds : wall % 1000 = 0 := by
    unfold MINUTE_MS at minutes
    omega
  rw [List.mem_filter, mem_around before after, decide_eq_true_iff, window.clock_eq_iff]
  constructor
  · rintro ⟨rfl | rfl, reads⟩
    · rw [window.offsetAt_eq plain (by omega) (by omega)] at reads
      split at reads <;> omega
    · rw [window.offsetAt_eq plain (by omega) (by omega)] at reads
      split at reads <;> omega
  · rintro (⟨rfl, under⟩ | ⟨rfl, beyond⟩)
    · rw [window.offsetAt_eq plain (by omega) (by omega), if_pos under]
      omega
    · rw [window.offsetAt_eq plain (by omega) (by omega), if_neg (by omega)]
      omega

/-- Where no instant has the clock time, the change is between the readings. -/
theorem Zone.Window.skips (window : z.Window wall c o1 o2) (skipped : ¬∃ t, z.clock t = wall) :
    o1 < o2 ∧ wall - o2 < c ∧ c ≤ wall - o1 := by
  have first : ¬z.clock (wall - o1) = wall := fun shows => skipped ⟨_, shows⟩
  have second : ¬z.clock (wall - o2) = wall := fun shows => skipped ⟨_, shows⟩
  rw [window.clock_eq_iff] at first second
  omega

theorem dayNumber_ge {y m d first : Int} (year : first ≤ y) (month : 1 ≤ m) (day : 1 ≤ d) :
    dayNumber first 1 1 ≤ dayNumber y m d := by
  have := monthStart_strictMono.monotone (show 12 * first + (1 - 1) ≤ 12 * y + (m - 1) by omega)
  unfold dayNumber
  omega

theorem dayNumber_lt {y m d last : Int} (real : RealDate y m d) (year : y < last) :
    dayNumber y m d < dayNumber last 1 1 := by
  obtain ⟨month, day⟩ := real
  have := monthStart_strictMono.monotone (show 12 * y + (m - 1) + 1 ≤ 12 * last + (1 - 1) by omega)
  unfold monthLength at day
  unfold dayNumber
  omega

section
variable {date : CalendarDate} {time : TimeOfDay} {fuel : Nat}

theorem TimeOfDay.ms_bounds (time : TimeOfDay) : 0 ≤ time.ms ∧ time.ms < MS_PER_DAY ∧
    time.ms % MINUTE_MS = 0 := by
  have hour := time.hour_lt
  have minute := time.minute_lt
  unfold TimeOfDay.ms MINUTE_MS MS_PER_DAY
  omega

theorem wallOf_eq (year : 100 ≤ date.year) : wallOf date time = asked date time := by
  have full : fullYear date.year = date.year := by
    unfold fullYear
    exact if_neg (by omega)
  rw [wallOf, dateUTC, full, asked]

theorem zonedDateTime_of_reading {first : Int}
    (reading : ((z.around (wallOf date time)).filter fun t =>
      t + z.offsetAt t = wallOf date time).min? = some first) :
    zonedDateTime date time z fuel = some first := by
  unfold zonedDateTime
  dsimp only
  rw [reading]

theorem zonedDateTime_of_none {lo hi : Int}
    (none : ((z.around (wallOf date time)).filter fun t => t + z.offsetAt t = wallOf date time) = [])
    (least : (z.around (wallOf date time)).min? = some lo)
    (greatest : (z.around (wallOf date time)).max? = some hi) :
    zonedDateTime date time z fuel = search MINUTE_MS (fun mid => z.offsetAt mid = z.offsetAt lo)
      fuel lo hi := by
  unfold zonedDateTime
  dsimp only
  rw [none, least, greatest]
  rfl

/-- A clock time some instant has is the first one's. -/
theorem zonedDateTime_exists (plain : Plain (asked date time)) (year : 100 ≤ date.year)
    (window : z.Window (asked date time) c o1 o2) (exists' : ∃ t, z.clock t = asked date time) :
    ∃ r, zonedDateTime date time z fuel = some r ∧ z.Answer (asked date time) c r := by
  obtain ⟨t, shows⟩ := exists'
  have member := (window.mem_readings plain).mpr shows
  obtain ⟨first, some⟩ :=
    Option.ne_none_iff_exists'.mp (mt List.min?_eq_none_iff.mp (List.ne_nil_of_mem member))
  have least := List.min?_eq_some_iff.mp some
  rw [← wallOf_eq year] at some
  refine ⟨_, zonedDateTime_of_reading some,
    ⟨fun _ => ⟨(window.mem_readings plain).mp least.1, fun t shows => ?_⟩,
    fun none => absurd ⟨t, shows⟩ none⟩⟩
  exact least.2 t ((window.mem_readings plain).mpr shows)

/-- A clock time no instant has is searched for between its two readings. -/
theorem zonedDateTime_skipped (plain : Plain (asked date time)) (year : 100 ≤ date.year)
    (window : z.Window (asked date time) c o1 o2) (skipped : ¬∃ t, z.clock t = asked date time) :
    (∃ fuel, zonedDateTime date time z fuel = some c) ↔
      Lands MINUTE_MS (asked date time - o2) (asked date time - o1) c := by
  obtain ⟨before, after⟩ := window.offsets plain
  obtain ⟨first, last⟩ := window.small
  obtain ⟨whole1, whole2⟩ := window.seconds
  obtain ⟨smaller, above, below⟩ := window.skips skipped
  have minutes := plain.minutes
  have seconds : asked date time % 1000 = 0 := by
    unfold MINUTE_MS at minutes
    omega
  have none : ((z.around (asked date time)).filter fun t => t + z.offsetAt t = asked date time) = [] := by
    refine List.eq_nil_iff_forall_not_mem.mpr fun t member =>
      skipped ⟨t, (window.mem_readings plain).mp member⟩
  have least := around_min before after
  have greatest := around_max before after
  rw [min_eq_right (by omega)] at least
  rw [max_eq_left (by omega)] at greatest
  rw [← wallOf_eq year] at none least greatest
  simp only [zonedDateTime_of_none none least greatest]
  rw [wallOf_eq year]
  refine search_change (by decide) ⟨above, below⟩ fun t steps from' upto => ?_
  have whole : t % 1000 = 0 := by
    unfold MINUTE_MS at steps
    omega
  rw [decide_eq_true_iff, window.offsetAt_eq plain whole (by omega),
    window.offsetAt_eq plain (by omega) (by omega),
    if_pos above]
  split <;> omega

theorem plain_asked (late : dayNumber 100 1 3 ≤ dayNumber date.year date.month date.day) :
    Plain (asked date time) := by
  obtain ⟨start, -, minutes⟩ := time.ms_bounds
  constructor
  · unfold asked MINUTE_MS at *
    unfold MS_PER_DAY
    omega
  · unfold asked MS_PER_DAY
    omega

theorem year_ge_hundred (late : dayNumber 100 1 3 ≤ dayNumber date.year date.month date.day) :
    100 ≤ date.year := by
  by_contra early
  have before := dayNumber_lt date.real (show (date.year : Int) < 100 by omega)
  have first : dayNumber 100 1 1 < dayNumber 100 1 3 := by decide
  omega

/-- Whatever is found is within a day of the clock time taken for UTC. -/
theorem zonedDateTime_near {r : Int} (late : dayNumber 100 1 3 * MS_PER_DAY ≤ wallOf date time)
    (seconds : wallOf date time % 1000 = 0) (found : zonedDateTime date time z fuel = some r) :
    wallOf date time - MS_PER_DAY < r ∧ r < wallOf date time + MS_PER_DAY := by
  have day : MS_PER_DAY % 1000 = 0 := by decide
  have early := offsetAt_late (z := z) late (t := wallOf date time - MS_PER_DAY) (by omega) (by omega)
  have after := offsetAt_late (z := z) late (t := wallOf date time + MS_PER_DAY) (by omega)
    (by unfold MS_PER_DAY; omega)
  have small := z.small (wallOf date time - MS_PER_DAY)
  have small' := z.small (wallOf date time + MS_PER_DAY)
  cases some : ((z.around (wallOf date time)).filter fun t => t + z.offsetAt t = wallOf date time).min? with
  | some first =>
    rw [zonedDateTime_of_reading some, Option.some.injEq] at found
    have member := List.mem_of_mem_filter (List.min?_eq_some_iff.mp some).1
    obtain rfl | rfl := (mem_around early after).mp member <;> omega
  | none =>
    have least := around_min early after
    have greatest := around_max early after
    rw [zonedDateTime_of_none (List.min?_eq_none_iff.mp some) least greatest] at found
    have bounds := search_bounds (by decide) (by omega) found
    omega

/-- A year of two digits is taken for one of the 1900s, so nothing found is right. -/
theorem zonedDateTime_two_digits {r : Int} (year : date.year < 100)
    (window : z.Window (asked date time) c o1 o2)
    (found : zonedDateTime date time z fuel = some r) : ¬z.Answer (asked date time) c r := by
  intro answer
  have full : fullYear date.year = 1900 + date.year := by
    unfold fullYear
    exact if_pos (by omega)
  have first : dayNumber 1900 1 1 ≤ dayNumber (1900 + date.year) date.month date.day :=
    dayNumber_ge (by omega) date.real.month.1 date.real.day.1
  have last := dayNumber_lt date.real (show (date.year : Int) < 100 by omega)
  have gap : dayNumber 100 1 3 + 3 ≤ dayNumber 1900 1 1 ∧
    dayNumber 100 1 1 + 3 ≤ dayNumber 1900 1 1 := by decide
  obtain ⟨start, ends, minutes⟩ := time.ms_bounds
  have wall : wallOf date time = dayNumber (1900 + date.year) date.month date.day * MS_PER_DAY + time.ms := by
    rw [wallOf, dateUTC, full]
  have near := zonedDateTime_near (by rw [wall]; unfold MS_PER_DAY; omega)
    (by rw [wall]; unfold MS_PER_DAY MINUTE_MS at *; omega) found
  have inside := window.inside
  have small := z.small r
  rw [wall] at near
  unfold asked at inside answer
  unfold MS_PER_DAY at *
  by_cases shown : ∃ t, z.clock t = dayNumber date.year date.month date.day * 86400000 + time.ms
  · have shows := (answer.first shown).1
    unfold Zone.clock at shows
    omega
  · have := answer.skipped shown
    omega

/-- A start is right exactly for a year of three digits or more and a clock time that some instant
has, or that is skipped at a change the search lands on. -/
theorem zonedDateTime_right_iff (z : Zone) (date : CalendarDate) (time : TimeOfDay) {c o1 o2 : Int}
    (window : z.Window (asked date time) c o1 o2)
    (years : date.year < 100 ∨ dayNumber 100 1 3 ≤ dayNumber date.year date.month date.day) :
    (∃ fuel r, zonedDateTime date time z fuel = some r ∧ z.Answer (asked date time) c r) ↔
      100 ≤ date.year ∧ ((∃ t, z.clock t = asked date time) ∨
        Lands MINUTE_MS (asked date time - o2) (asked date time - o1) c) := by
  obtain early | late := years
  · constructor
    · rintro ⟨fuel, r, found, answer⟩
      exact absurd answer (zonedDateTime_two_digits early window found)
    · rintro ⟨year, -⟩
      omega
  · have year := year_ge_hundred late
    have plain : Plain (asked date time) := plain_asked late
    by_cases shown : ∃ t, z.clock t = asked date time
    · obtain ⟨r, found⟩ : ∃ r, zonedDateTime date time z 0 = some r ∧ _ :=
        zonedDateTime_exists plain year window shown
      exact ⟨fun _ => ⟨year, .inl shown⟩, fun _ => ⟨0, r, found⟩⟩
    · have search := zonedDateTime_skipped plain year window shown
      constructor
      · rintro ⟨fuel, r, found, answer⟩
        obtain rfl := answer.skipped shown
        exact ⟨year, .inr (search.mp ⟨fuel, found⟩)⟩
      · rintro ⟨-, skipped⟩
        obtain ⟨fuel, found⟩ := search.mpr (skipped.resolve_left shown)
        exact ⟨fuel, c, found, ⟨fun shows => absurd shows shown, fun _ => rfl⟩⟩

end

/-- Europe/London, whose clocks went forward 75 seconds to Greenwich's on the first of December 1847. -/
def london : Zone where
  offset t := if t < -3852662325000 then -75000 else 0
  seconds t := by split <;> decide
  small t := by split <;> decide

def december1847 : CalendarDate :=
  { year := 1847, month := 12, day := 1, year_lt := by decide, real := by decide }

def midnight : TimeOfDay := { hour := 0, minute := 0, hour_lt := by decide, minute_lt := by decide }

theorem asked_december1847 : asked december1847 midnight = -3852662400000 := by decide

theorem london_window : london.Window (asked december1847 midnight) (-3852662325000) (-75000) 0 := by
  rw [asked_december1847]
  constructor
  · decide
  · exact fun t _ under => if_pos under
  · intro t beyond _
    exact if_neg (by omega)

/-- The midnight the clocks skipped there is searched for without end. -/
theorem december1847_never_ends :
    london.Window (asked december1847 midnight) (-3852662325000) (-75000) 0 ∧
      ∀ fuel, zonedDateTime december1847 midnight london fuel = none := by
  refine ⟨london_window, fun fuel => ?_⟩
  have wall : wallOf december1847 midnight = -3852662400000 := by decide
  have before : london.offsetAt (-3852662400000 - MS_PER_DAY) = -75000 := by decide
  have after : london.offsetAt (-3852662400000 + MS_PER_DAY) = 0 := by decide
  have none : (london.around (-3852662400000)).filter
    (fun t => t + london.offsetAt t = -3852662400000) = [] := by decide
  have least := around_min before after
  have greatest := around_max before after
  rw [zonedDateTime_of_none (by rwa [wall]) (by rwa [wall]) (by rwa [wall])]
  exact search_stuck (by decide) (by decide) (by decide) fuel

theorem zonedDateTime_right_december1847 :
    (∃ fuel r, zonedDateTime december1847 midnight london fuel = some r ∧
      london.Answer (asked december1847 midnight) (-3852662325000) r) ↔
      100 ≤ december1847.year ∧ ((∃ t, london.clock t = asked december1847 midnight) ∨
        Lands MINUTE_MS (asked december1847 midnight - 0) (asked december1847 midnight - -75000)
        (-3852662325000)) :=
  zonedDateTime_right_iff london december1847 midnight london_window (.inr (by decide))

end OpenAduc.Dates
