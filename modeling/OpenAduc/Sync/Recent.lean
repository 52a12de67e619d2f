import OpenAduc.Sync.Slots

namespace OpenAduc.Sync.FixedZone

section
variable {z : FixedZone} {cron : String → Int → Option Int} {anchor now : Int} {day : MonthlyDay}

/-- The most recent daily slot is the last at or before now. -/
theorem mostRecentDaily_between (z : FixedZone) (cron : String → Int → Option Int) (anchor now : Int) :
    ∃ i, (z.calendar cron).mostRecentDaily now anchor = z.slot anchor id i ∧
      z.slot anchor id i ≤ now ∧ now < z.slot anchor id (i + 1) := by
  have past := slot_le_iff (z := z) anchor id now
  have clock := sinceMidnight_bounds (z := z) anchor
  unfold LocalCalendar.mostRecentDaily
  dsimp only
  rw [setClockTime_eq]
  by_cases reached : z.slot anchor id (z.localDay now) ≤ now
  · have next := past (z.localDay now + 1)
    rw [if_pos reached]
    simp only [id_eq] at next
    exact ⟨z.localDay now, rfl, reached, by omega⟩
  · have before := past (z.localDay now + -1)
    have same : z.localDay now + -1 + 1 = z.localDay now := by omega
    rw [if_neg reached]
    simp only [id_eq] at before
    exact ⟨z.localDay now + -1, addDays_slot _ _, by omega, by rw [same]; omega⟩

/-- The days back to a weekday, at most six. -/
theorem exists_weekBack (today target : Int) :
    ∃ w, today + -(((((today + 4) % 7).toNat + 7 - ((target + 4) % 7).toNat) % 7 : Nat) : Int) =
      target + 7 * w ∧
      today - 6 ≤ target + 7 * w ∧ target + 7 * w ≤ today :=
  ⟨(today + -(((((today + 4) % 7).toNat + 7 - ((target + 4) % 7).toNat) % 7 : Nat) : Int) - target)
    / 7, by omega⟩

/-- The most recent weekly slot is the last at or before now. -/
theorem mostRecentWeekly_between (z : FixedZone) (cron : String → Int → Option Int) (anchor now : Int) :
    ∃ w, (z.calendar cron).mostRecentWeekly now anchor = z.slot anchor (z.weekDays anchor) w ∧
      z.slot anchor (z.weekDays anchor) w ≤ now ∧ now < z.slot anchor (z.weekDays anchor) (w + 1) := by
  have past := slot_le_iff (z := z) anchor (z.weekDays anchor) now
  obtain ⟨w, aligned, near⟩ := exists_weekBack (z.localDay now) (z.localDay anchor)
  have thisWeek : (z.calendar cron).addDays (z.slot anchor id (z.localDay now))
      (-(((((z.calendar cron).weekday (z.slot anchor id (z.localDay now)) + 7 -
        (z.calendar cron).weekday anchor) % 7 : Nat)) : Int)) =
      z.slot anchor (z.weekDays anchor) w := by
    rw [weekday_slot, addDays_slot]
    exact congrArg (fun d => z.instant d _) aligned
  have before : z.weekDays anchor w + -7 = z.weekDays anchor (w - 1) := by
    unfold weekDays
    omega
  have lastWeek : (z.calendar cron).addDays (z.slot anchor (z.weekDays anchor) w) (-7) =
      z.slot anchor (z.weekDays anchor) (w - 1) := by
    rw [addDays_slot, before]
    rfl
  have after : z.weekDays anchor (w + 1) = z.weekDays anchor w + 7 := by
    unfold weekDays
    omega
  have day : z.weekDays anchor w = z.localDay anchor + 7 * w := rfl
  unfold LocalCalendar.mostRecentWeekly
  dsimp only
  rw [setClockTime_eq, thisWeek, lastWeek]
  by_cases unreached : now < z.slot anchor (z.weekDays anchor) w
  · have same : w - 1 + 1 = w := by omega
    have earlier := past (w - 1)
    rw [if_pos unreached]
    exact ⟨w - 1, rfl, by omega, by rwa [same]⟩
  · have next := past (w + 1)
    rw [if_neg unreached]
    exact ⟨w, rfl, by omega, by omega⟩

/-- The month of the latest slot. -/
def latestMonth (z : FixedZone) (anchor : Int) (day : MonthlyDay) (now : Int) : Int :=
  if z.slot anchor (monthDay day) (z.month now) ≤ now then z.month now else z.month now - 1

/-- A month's slot is after the times of the month before, and before those of the next. -/
theorem month_between (z : FixedZone) (anchor now : Int) (valid : day.Valid) :
    z.slot anchor (monthDay day) (z.month now - 1) ≤ now ∧
      now < z.slot anchor (monthDay day) (z.month now + 1) := by
  have past := slot_le_iff (z := z) anchor (monthDay day) now
  have here := monthOf_spec (z.localDay now)
  have lastMonth := monthDay_bounds valid (z.month now - 1)
  have nextMonth := monthDay_bounds valid (z.month now + 1)
  have before := past (z.month now - 1)
  have after := past (z.month now + 1)
  have back : z.month now - 1 + 1 = z.month now := by omega
  rw [back] at lastMonth
  unfold month at *
  exact ⟨by omega, by omega⟩

theorem latestMonth_between (z : FixedZone) (anchor now : Int) (valid : day.Valid) :
    z.slot anchor (monthDay day) (z.latestMonth anchor day now) ≤ now ∧
      now < z.slot anchor (monthDay day) (z.latestMonth anchor day now + 1) := by
  obtain ⟨before, after⟩ := month_between z anchor now valid
  have back : z.month now - 1 + 1 = z.month now := by omega
  unfold latestMonth
  split
  next reached => exact ⟨reached, after⟩
  next unreached => exact ⟨before, by rw [back]; omega⟩

/-- A month's year isn't one that a date's parts move to the 1900s. -/
def NamesItself (m : Int) : Prop := ¬(0 ≤ m / 12 ∧ m / 12 ≤ 99)

/-- Where the month's slot is still to come, the day of the month is one the month before has too. -/
def MonthReached (z : FixedZone) (anchor : Int) (day : MonthlyDay) (now : Int) : Prop :=
  NamesItself (z.latestMonth anchor day now) ∧
    (now < z.slot anchor (monthDay day) (z.month now) → z.dayOfMonth now ≤ monthLength (z.month now - 1))

/-- The most recent monthly slot is the last at or before now just where its month is reached. -/
theorem mostRecentMonthly_eq_iff (cron : String → Int → Option Int) (valid : day.Valid) :
    (z.calendar cron).mostRecentMonthly now anchor day =
      z.slot anchor (monthDay day) (z.latestMonth anchor day now) ↔
      z.MonthReached anchor day now := by
  have later : StrictMono (z.slot anchor (monthDay day)) := slot_strictMono (monthDay_strictMono valid)
  have same : ∀ i j, z.slot anchor (monthDay day) i = z.slot anchor (monthDay day) j ↔ i = j :=
    fun _ _ => later.injective.eq_iff
  unfold LocalCalendar.mostRecentMonthly MonthReached NamesItself
  dsimp only
  rw [monthlySlotForMonth_eq, monthlySlotForMonth_eq, month_addMonths, ← fullMonth_eq_iff]
  obtain ⟨past, next⟩ := latestMonth_between z anchor now valid
  have moved := fullMonth_ge (z.month now)
  have movedBack := fullMonth_ge (z.month now - 1)
  have beyond : ∀ m, z.latestMonth anchor day now < m → now < z.slot anchor (monthDay day) m := fun m above =>
    next.trans_le (later.monotone above)
  have back : z.month now + -1 = z.month now - 1 := rfl
  have here : z.month now - 1 + 1 = z.month now := by omega
  rw [back, here]
  by_cases reached : z.slot anchor (monthDay day) (z.month now) ≤ now
  · have latest : z.latestMonth anchor day now = z.month now := if_pos reached
    rw [latest] at beyond ⊢
    by_cases itself : fullMonth (z.month now) = z.month now
    · simp only [itself]
      rw [if_neg (by omega)]
      simp [reached]
    · rw [if_pos (beyond _ (by omega)), same]
      split <;> omega
  · have latest : z.latestMonth anchor day now = z.month now - 1 := if_neg reached
    rw [latest] at beyond ⊢
    rw [if_pos (beyond _ (by omega)), same]
    split <;> omega

end
/-- A daily, weekly or monthly schedule, with an anchor and, where it needs one, a day. -/
inductive Scheduled (r : SyncTaskRow) : Prop
  | daily {anchor : Int} (kind : r.scheduleKind = .daily) (anchored : r.anchorAt = some anchor)
  | weekly {anchor : Int} (kind : r.scheduleKind = .weekly) (anchored : r.anchorAt = some anchor)
  | monthly {anchor : Int} {day : MonthlyDay} (valid : day.Valid) (kind : r.scheduleKind = .monthly)
      (anchored : r.anchorAt = some anchor) (set : r.monthlyDay = some day)

/-- What `isDueNow` looks a row's slot up as. -/
def recentSlot (c : LocalCalendar) (r : SyncTaskRow) (now : Int) : Option Int :=
  r.anchorAt.bind fun anchor => c.mostRecentSlot now anchor r.scheduleKind r.monthlyDay

/-- For a monthly schedule: its latest slot is in a month found from now. -/
def Reached (z : FixedZone) (r : SyncTaskRow) (now : Int) : Prop :=
  r.scheduleKind = .monthly →
    ∀ anchor day, r.anchorAt = some anchor → r.monthlyDay = some day → z.MonthReached anchor day now

section
variable {z : FixedZone} {cron : String → Int → Option Int} {r : SyncTaskRow} {now : Int}

theorem isDueNow_eq (scheduled : Scheduled r) (c : LocalCalendar) :
    c.isDueNow r now = ((recentSlot c r now).filter (· ≤ now)).any (r.lastStartedAt.getD 0 < ·) := by
  cases scheduled with
  | daily kind anchored =>
    simp [LocalCalendar.isDueNow, LocalCalendar.pastSlot, recentSlot, LocalCalendar.mostRecentSlot,
      kind, anchored]
  | weekly kind anchored =>
    simp [LocalCalendar.isDueNow, LocalCalendar.pastSlot, recentSlot, LocalCalendar.mostRecentSlot,
      kind, anchored]
  | monthly valid kind anchored set =>
    simp [LocalCalendar.isDueNow, LocalCalendar.pastSlot, recentSlot, LocalCalendar.mostRecentSlot,
      kind, anchored, set]

/-- The slot looked up is the latest one exactly where a monthly schedule's month is reached. -/
structure LooksUp (z : FixedZone) (cron : String → Int → Option Int) (r : SyncTaskRow) (anchor : Int)
    (days : Int → Int) : Prop extends z.Slotted r anchor days where
  between : ∀ now, ∃ i, z.slot anchor days i ≤ now ∧ now < z.slot anchor days (i + 1) ∧
    (recentSlot (z.calendar cron) r now = some (z.slot anchor days i) ↔ z.Reached r now)

section
variable {anchor : Int} {day : MonthlyDay} (z cron)

theorem looksUp_daily (kind : r.scheduleKind = .daily) (anchored : r.anchorAt = some anchor) :
    LooksUp z cron r anchor id where
  toSlotted := slotted_daily kind anchored
  between now := by
    obtain ⟨i, found, past, next⟩ := mostRecentDaily_between z cron anchor now
    refine ⟨i, past, next, ?_⟩
    simp [recentSlot, LocalCalendar.mostRecentSlot, Reached, kind, anchored, found]

theorem looksUp_weekly (kind : r.scheduleKind = .weekly) (anchored : r.anchorAt = some anchor) :
    LooksUp z cron r anchor (z.weekDays anchor) where
  toSlotted := slotted_weekly kind anchored
  between now := by
    obtain ⟨i, found, past, next⟩ := mostRecentWeekly_between z cron anchor now
    refine ⟨i, past, next, ?_⟩
    simp [recentSlot, LocalCalendar.mostRecentSlot, Reached, kind, anchored, found]

theorem looksUp_monthly (valid : day.Valid) (kind : r.scheduleKind = .monthly)
    (anchored : r.anchorAt = some anchor)
    (set : r.monthlyDay = some day) : LooksUp z cron r anchor (monthDay day) where
  toSlotted := slotted_monthly valid kind anchored set
  between now := by
    obtain ⟨past, next⟩ := latestMonth_between z anchor now valid
    refine ⟨_, past, next, ?_⟩
    simp [recentSlot, LocalCalendar.mostRecentSlot, Reached, kind, anchored, set,
      ← mostRecentMonthly_eq_iff cron valid]

theorem exists_looksUp (scheduled : Scheduled r) : ∃ anchor days, LooksUp z cron r anchor days := by
  cases scheduled with
  | daily kind anchored => exact ⟨_, _, looksUp_daily z cron kind anchored⟩
  | weekly kind anchored => exact ⟨_, _, looksUp_weekly z cron kind anchored⟩
  | monthly valid kind anchored set => exact ⟨_, _, looksUp_monthly z cron valid kind anchored set⟩

end

/-- The slot looked up is the latest at or before now, and a last start before a slot that has come makes
the row due: exactly where a monthly schedule's month is reached. -/
theorem slots_met_iff (z : FixedZone) (cron : String → Int → Option Int) (now : Int)
    (scheduled : Scheduled r) :
    ((∃ s, recentSlot (z.calendar cron) r now = some s ∧ IsGreatest {s | z.IsSlot r s ∧ s ≤ now} s) ∧
      ((∃ s, z.IsSlot r s ∧ s ≤ now ∧ r.lastStartedAt.getD 0 < s) →
        (z.calendar cron).isDueNow r now = true)) ↔
    z.Reached r now := by
  obtain ⟨anchor, days, looks⟩ := exists_looksUp z cron scheduled
  obtain ⟨i, past, next, reached⟩ := looks.between now
  have latest : IsGreatest {s | z.IsSlot r s ∧ s ≤ now} (z.slot anchor days i) := by
    simp only [looks.slots]
    exact (Slots.isGreatest_iff (slot_strictMono looks.later) isUpperSet_univ trivial).mpr ⟨past, next⟩
  constructor
  · rintro ⟨⟨s, found, greatest⟩, _⟩
    exact reached.mp (found.trans (congrArg some (greatest.unique latest)))
  · intro kept
    have found := reached.mpr kept
    refine ⟨⟨_, found, latest⟩, ?_⟩
    rintro ⟨s, isSlot, before, missed⟩
    have atMost : s ≤ z.slot anchor days i := latest.2 ⟨isSlot, before⟩
    rw [isDueNow_eq scheduled, found]
    simp [Option.filter, past]
    omega

end

def UTC : FixedZone where
  offset := 0
  small := by decide

/-- On the last day of every month, at three. -/
def monthEnd (lastStartedAt : Option Int) : SyncTaskRow where
  taskKey := .usersFull
  scheduleKind := .monthly
  intervalMinutes := 0
  anchorAt := some 2602800000
  monthlyDay := some .last
  cronExpr := none
  lastStartedAt
  lastStatus := none

/-- The last of May, before its slot: April's slot, missed, isn't found. -/
theorem april_skipped :
    ∃ s, UTC.IsSlot (monthEnd (some 1774926000000)) s ∧ s ≤ 1780189200000 ∧ 1774926000000 < s ∧
      (UTC.calendar fun _ _ => none).isDueNow (monthEnd (some 1774926000000)) 1780189200000 = false :=
  ⟨1777518000000, show _ ∧ _ from ⟨show _ = _ by decide, by decide⟩, by decide, by decide, by decide⟩

/-- The first of May: it is. -/
theorem slots_met_iff_may :
    (UTC.calendar fun _ _ => none).isDueNow (monthEnd (some 1774926000000)) 1777600000000 = true := by
  have scheduled : Scheduled (monthEnd (some 1774926000000)) :=
    .monthly (show MonthlyDay.last.Valid from trivial) rfl rfl rfl
  have reached : UTC.Reached (monthEnd (some 1774926000000)) 1777600000000 := by
    rintro _ anchor day ⟨⟩ ⟨⟩
    exact ⟨show ¬(_ ∧ _) by decide, by decide⟩
  have met := ((slots_met_iff UTC (fun _ _ => none) 1777600000000 scheduled).mpr reached).2
  exact met ⟨1777518000000, show _ ∧ _ from ⟨show _ = _ by decide, by decide⟩, by decide, by decide⟩

end OpenAduc.Sync.FixedZone
