import OpenAduc.Lib.Slots
import OpenAduc.Sync.Calendar

namespace OpenAduc.Sync

namespace LocalCalendar
variable (c : LocalCalendar)

/-- The most recent slot at or before now, as the scheduler looks for it. -/
def mostRecentSlot (now anchor : Int) : ScheduleKind → Option MonthlyDay → Option Int
  | .daily, _ => some (c.mostRecentDaily now anchor)
  | .weekly, _ => some (c.mostRecentWeekly now anchor)
  | .monthly, some day => some (c.mostRecentMonthly now anchor day)
  | _, _ => none

end LocalCalendar

/-- A day the schema takes: 1 to 28, or the last. -/
def MonthlyDay.Valid : MonthlyDay → Prop
  | .day n => 1 ≤ n ∧ n ≤ 28
  | .last => True

/-- The day a month's slot is on. -/
def monthDay : MonthlyDay → Int → Int
  | .day n, m => monthStart m + (n - 1)
  | .last, m => monthStart (m + 1) - 1

theorem monthDay_bounds {day : MonthlyDay} (valid : day.Valid) (m : Int) :
    monthStart m ≤ monthDay day m ∧ monthDay day m < monthStart (m + 1) := by
  have length := monthLength_bounds m
  unfold monthLength at length
  cases day with
  | day n =>
    obtain ⟨first, last⟩ := valid
    simp only [monthDay]
    omega
  | last =>
    simp only [monthDay]
    omega

theorem monthDay_strictMono {day : MonthlyDay} (valid : day.Valid) : StrictMono (monthDay day) := by
  refine strictMono_int_of_lt_succ fun m => ?_
  have here := monthDay_bounds valid m
  have next := monthDay_bounds valid (m + 1)
  omega

/-- The month whose number a date's parts give back: another one for the years 0 to 99. -/
def fullMonth (m : Int) : Int := 12 * fullYear (m / 12) + m % 12

theorem fullMonth_eq_iff {m : Int} : fullMonth m = m ↔ ¬(0 ≤ m / 12 ∧ m / 12 ≤ 99) := by
  unfold fullMonth fullYear
  split <;> omega

theorem fullMonth_ge (m : Int) : fullMonth m = m ∨ m + 22800 = fullMonth m := by
  unfold fullMonth fullYear
  split <;> omega

namespace FixedZone
variable (z : FixedZone)

/-- An instant at the anchor's time of day. -/
def AtClock (anchor s : Int) : Prop := z.msInDay s = sinceMidnight (z.clockTime anchor)

/-- An instant a schedule names: the anchor's time of day, on its weekday, or on the day of the month. -/
def IsSlot (r : SyncTaskRow) (s : Int) : Prop :=
  match r.scheduleKind, r.anchorAt, r.monthlyDay with
  | .daily, some anchor, _ => z.AtClock anchor s
  | .weekly, some anchor, _ => z.AtClock anchor s ∧ (z.localDay s - z.localDay anchor) % 7 = 0
  | .monthly, some anchor, some (.day n) => z.AtClock anchor s ∧ z.dayOfMonth s = n
  | .monthly, some anchor, some .last => z.AtClock anchor s ∧ z.dayOfMonth s = monthLength (z.month s)
  | _, _, _ => False

/-- Slot by slot on its days, at the anchor's time of day. -/
def slot (anchor : Int) (days : Int → Int) (i : Int) : Int :=
  z.instant (days i) (sinceMidnight (z.clockTime anchor))

def weekDays (anchor : Int) (w : Int) : Int := z.localDay anchor + 7 * w

section
variable {z} {anchor s now : Int} {days : Int → Int}

theorem slot_strictMono (later : StrictMono days) : StrictMono (z.slot anchor days) :=
  instant_strictMono later _

theorem localDay_slot (i : Int) : z.localDay (z.slot anchor days i) = days i :=
  localDay_instant (sinceMidnight_bounds anchor).1 (sinceMidnight_bounds anchor).2

theorem msInDay_slot (i : Int) : z.msInDay (z.slot anchor days i) = sinceMidnight (z.clockTime anchor) :=
  msInDay_instant (sinceMidnight_bounds anchor).1 (sinceMidnight_bounds anchor).2

theorem mem_slots_iff : s ∈ z.slot anchor days '' Set.univ ↔
    z.AtClock anchor s ∧ ∃ i, days i = z.localDay s := by
  constructor
  · rintro ⟨i, _, rfl⟩
    exact ⟨msInDay_slot i, i, (localDay_slot i).symm⟩
  · rintro ⟨atClock, i, same⟩
    refine ⟨i, trivial, ?_⟩
    rw [slot, same, ← atClock, instant_localDay]

end

/-- A schedule of days with a time. -/
structure Slotted (r : SyncTaskRow) (anchor : Int) (days : Int → Int) : Prop where
  anchored : r.anchorAt = some anchor
  later : StrictMono days
  slots : ∀ s, z.IsSlot r s ↔ s ∈ z.slot anchor days '' Set.univ

section
variable {z} {r : SyncTaskRow} {anchor : Int}

theorem slotted_daily (kind : r.scheduleKind = .daily) (anchored : r.anchorAt = some anchor) :
    z.Slotted r anchor id where
  anchored
  later := strictMono_id
  slots s := by
    rw [mem_slots_iff]
    simp [IsSlot, kind, anchored]

/-- A weekly schedule has its slots on the week's days. -/
theorem slotted_weekly (kind : r.scheduleKind = .weekly) (anchored : r.anchorAt = some anchor) :
    z.Slotted r anchor (z.weekDays anchor) where
  anchored
  later i j less := by
    unfold weekDays
    omega
  slots s := by
    have week : (∃ w, z.weekDays anchor w = z.localDay s) ↔ (z.localDay s - z.localDay anchor) % 7 = 0 := by
      unfold weekDays
      constructor
      · rintro ⟨w, same⟩
        omega
      · intro whole
        exact ⟨(z.localDay s - z.localDay anchor) / 7, by omega⟩
    rw [mem_slots_iff, week]
    simp [IsSlot, kind, anchored]

theorem exists_monthDay_iff {day : MonthlyDay} (valid : day.Valid) {s : Int} :
    (∃ m, monthDay day m = z.localDay s) ↔ monthDay day (z.month s) = z.localDay s := by
  constructor
  · rintro ⟨m, same⟩
    obtain ⟨started, ends⟩ := monthDay_bounds valid m
    have here : z.month s = m := monthOf_eq (same ▸ started) (same ▸ ends)
    rw [here, same]
  · intro same
    exact ⟨_, same⟩

theorem slotted_monthly {day : MonthlyDay} (valid : day.Valid) (kind : r.scheduleKind = .monthly)
    (anchored : r.anchorAt = some anchor) (set : r.monthlyDay = some day) :
    z.Slotted r anchor (monthDay day) where
  anchored
  later := monthDay_strictMono valid
  slots s := by
    rw [mem_slots_iff, exists_monthDay_iff valid]
    cases day with
    | day n =>
      simp only [IsSlot, kind, anchored, set, dayOfMonth, monthDay]
      exact and_congr_right fun _ => by omega
    | last =>
      simp only [IsSlot, kind, anchored, set, dayOfMonth, monthDay, monthLength]
      exact and_congr_right fun _ => by omega

end

section
variable {z} {cron : String → Int → Option Int} {anchor now t : Int} {days : Int → Int}

theorem slot_le_iff (anchor : Int) (days : Int → Int) (now i : Int) :
    z.slot anchor days i ≤ now ↔
      days i < z.localDay now ∨ days i = z.localDay now ∧
      sinceMidnight (z.clockTime anchor) ≤ z.msInDay now := by
  have time := sinceMidnight_bounds (z := z) anchor
  have whole : now = z.instant (z.localDay now) (z.msInDay now) := (instant_localDay now).symm
  have clock := msInDay_bounds (z := z) now
  unfold slot
  simp only [instant, MS_PER_DAY] at *
  omega

theorem setClockTime_eq :
    (z.calendar cron).setClockTime now ((z.calendar cron).clockTime anchor) =
      z.slot anchor id (z.localDay now) := rfl

theorem weekday_slot (i : Int) : (z.calendar cron).weekday (z.slot anchor days i) =
    ((days i + 4) % 7).toNat := by
  show ((z.localDay (z.slot anchor days i) + 4) % 7).toNat = _
  rw [localDay_slot]

theorem addDays_slot (i n : Int) :
    (z.calendar cron).addDays (z.slot anchor days i) n =
      z.instant (days i + n) (sinceMidnight (z.clockTime anchor)) := by
  show z.instant (z.localDay (z.slot anchor days i) + n) (z.msInDay (z.slot anchor days i)) = _
  rw [localDay_slot, msInDay_slot]

theorem month_slot {day : MonthlyDay} (valid : day.Valid) (m : Int) :
    z.month (z.slot anchor (monthDay day) m) = m := by
  obtain ⟨started, ends⟩ := monthDay_bounds valid m
  unfold month
  rw [localDay_slot]
  exact monthOf_eq started ends

/-- The day of the month before a month's first is the month's length. -/
theorem dayOfMonth_last (m : Int) : z.dayOfMonth (z.instant (monthStart (m + 1) - 1) 0) = monthLength m := by
  have inside : monthStart m ≤ monthStart (m + 1) - 1 ∧ monthStart (m + 1) - 1 < monthStart (m + 1) :=
    monthDay_bounds (show MonthlyDay.last.Valid from trivial) m
  unfold dayOfMonth month
  rw [localDay_instant (by omega) (by decide), monthOf_eq inside.1 inside.2]
  unfold monthLength
  omega

/-- A month's slot is on its day of that month. -/
theorem monthlySlotForMonth_eq (day : MonthlyDay) :
    (z.calendar cron).monthlySlotForMonth t day anchor =
      z.slot anchor (monthDay day) (fullMonth (z.month t)) := by
  cases day with
  | day n => rfl
  | last =>
    have dayBefore : z.instant (monthStart (12 * fullYear (z.month t / 12) + (z.month t % 12 + 1)) + (0 - 1))
        (sinceMidnight (0, 0, 0)) = z.instant (monthStart (fullMonth (z.month t) + 1) - 1) 0 := by
      unfold fullMonth
      rw [← Int.add_assoc]
      rfl
    show z.instant (monthStart (fullMonth (z.month t)) +
      (z.dayOfMonth (z.instant (monthStart (12 * fullYear (z.month t / 12) + (z.month t % 12 + 1)) + (0 - 1))
        (sinceMidnight (0, 0, 0))) - 1)) _ = _
    rw [dayBefore, dayOfMonth_last]
    have same : monthStart (fullMonth (z.month t)) + (monthLength (fullMonth (z.month t)) - 1) =
        monthDay .last (fullMonth (z.month t)) := by
      simp only [monthDay, monthLength]
      omega
    rw [same]
    rfl

/-- A month on or back: one more where the day is past the end of the month it lands in. -/
theorem month_addMonths (n : Int) :
    z.month ((z.calendar cron).addMonths t n) =
      if z.dayOfMonth t ≤ monthLength (z.month t + n) then z.month t + n else z.month t + n + 1 := by
  have bounds := dayOfMonth_bounds (z := z) t
  have length := monthLength_bounds (z.month t)
  have clock := msInDay_bounds (z := z) t
  show monthOf (z.localDay (z.instant _ _)) = _
  rw [localDay_instant clock.1 clock.2]
  exact monthOf_overflow _ bounds.1 (by omega)

end

end FixedZone
end OpenAduc.Sync
