import OpenAduc.Sync.Recent

namespace OpenAduc.Sync

/-- Started at a time or since. -/
def SyncTaskRow.startedSince (r : SyncTaskRow) (t : Int) : Bool := r.lastStartedAt.any (t ≤ ·)

namespace LocalCalendar
variable (c : LocalCalendar)

/-- The first instant after now with the anchor's time, on the weekday. -/
def nextWeekdayAt (now : Int) (weekday : Nat) (time : Int) : Int :=
  let candidate := c.setClockTime now (c.clockTime time)
  let delta := (weekday + 7 - c.weekday candidate) % 7
  if delta = 0 ∧ candidate ≤ now then c.addDays candidate 7 else c.addDays candidate delta

/-- The next due time, as it is shown. -/
def computeNextDueAt (nextCronSlot : String → Int → Option Int) (r : SyncTaskRow) (now : Int) : Option Int :=
  match r.scheduleKind with
  | .interval | .hourly =>
    let interval := r.intervalMinutes * 60000
    if interval ≤ 0 then none
    else
      match r.anchorAt with
      | none =>
        match r.lastStartedAt with
        | none => some now
        | some last => some (last + interval)
      | some anchor =>
        let elapsedFromAnchor := max 0 (now - anchor)
        let candidate := anchor + -(-elapsedFromAnchor / interval) * interval
        if r.startedSince candidate then some (candidate + interval) else some candidate
  | .daily => r.anchorAt.map fun anchor =>
    let slot := c.setClockTime now (c.clockTime anchor)
    if slot ≤ now ∨ r.startedSince slot then c.addDays slot 1 else slot
  | .weekly => r.anchorAt.map fun anchor =>
    let slot := c.nextWeekdayAt now (c.weekday anchor) anchor
    if r.startedSince slot then c.addDays slot 7 else slot
  | .monthly =>
    match r.anchorAt, r.monthlyDay with
    | some anchor, some day =>
      let slot := c.monthlySlotForMonth now day anchor
      some (if slot ≤ now ∨ r.startedSince slot then
        c.monthlySlotForMonth (c.addMonths slot 1) day anchor else slot)
    | _, _ => none
  | .cron => (r.cronExpr.filter (· ≠ "")).bind (nextCronSlot · now)

end LocalCalendar

/-- An answer names the first time after now that meets a test; none, that there isn't one. -/
def Predicts (due : Int → Prop) (now : Int) : Option Int → Prop
  | none => ∀ t, now < t → ¬due t
  | some a => IsLeast {t | now < t ∧ due t} a

namespace FixedZone

section
variable {z : FixedZone} {cron : String → Int → Option Int} {r : SyncTaskRow} {anchor now t : Int}
    {day : MonthlyDay}

/-- From 1970 on, a month's number is what a date's parts give back. -/
theorem fullMonth_month (began : 0 ≤ t) {m : Int} (near : z.month t - 1 ≤ m) : fullMonth m = m := by
  have small := z.small
  have started := monthOf_spec (z.localDay t)
  have december : monthStart (12 * 1969 + 11) ≤ z.localDay t := by
    have first : monthStart (12 * 1969 + 11) = -31 := by decide
    simp only [localDay, MS_PER_DAY] at *
    omega
  have after := monthStart_strictMono.lt_iff_lt.mp (december.trans_lt started.2)
  have next : 12 * 1969 + 11 ≤ z.month t := by
    unfold month
    omega
  rw [fullMonth_eq_iff]
  omega

theorem namesItself_latestMonth (began : 0 ≤ t) : NamesItself (z.latestMonth anchor day t) := by
  unfold NamesItself
  rw [← fullMonth_eq_iff]
  unfold latestMonth
  split
  · exact fullMonth_month (z := z) began (by omega)
  · exact fullMonth_month (z := z) began (by omega)

/-- A month's slot found at or before now is the latest. -/
theorem monthReached_of_past (began : 0 ≤ t)
    (past : (z.calendar cron).mostRecentMonthly t anchor day ≤ t) : z.MonthReached anchor day t := by
  refine ⟨namesItself_latestMonth began, fun ahead => ?_⟩
  by_contra overflow
  have itself : fullMonth (z.month t) = z.month t := fullMonth_month (z := z) began (by omega)
  have back : z.month t + -1 + 1 = z.month t := by omega
  have overflow : ¬z.dayOfMonth t ≤ monthLength (z.month t + -1) := overflow
  unfold LocalCalendar.mostRecentMonthly at past
  dsimp only at past
  rw [monthlySlotForMonth_eq, monthlySlotForMonth_eq, month_addMonths, itself, if_pos ahead,
    if_neg overflow, back,
    itself] at past
  omega

/-- The days from which a month's slot isn't found run up to it. -/
theorem monthReached_of_later (valid : day.Valid) (began : 0 ≤ now) (le : now ≤ t)
    (still : ∀ m, z.slot anchor (monthDay day) m ≤ t → z.slot anchor (monthDay day) m ≤ now)
    (reached : z.MonthReached anchor day t) : z.MonthReached anchor day now := by
  refine ⟨namesItself_latestMonth began, fun ahead => ?_⟩
  have ahead' : t < z.slot anchor (monthDay day) (z.month now) := by
    by_contra passed
    have := still (z.month now) (by omega)
    omega
  have notYet := (slot_le_iff (z := z) anchor (monthDay day) t (z.month now)).not.mp (by omega)
  have dayInMonth := monthDay_bounds valid (z.month now)
  have days : z.localDay now ≤ z.localDay t := by
    simp only [localDay, MS_PER_DAY]
    omega
  have here := monthOf_spec (z.localDay now)
  have same : z.month t = z.month now := by
    unfold month at *
    exact monthOf_eq (by omega) (by omega)
  obtain ⟨_, fits⟩ := reached
  rw [same] at fits
  have bound := fits ahead'
  unfold dayOfMonth at *
  rw [same] at bound
  omega

theorem monthReached_slot (valid : day.Valid) {m : Int} (began : 0 ≤ z.slot anchor (monthDay day) m) :
    z.MonthReached anchor day (z.slot anchor (monthDay day) m) := by
  refine ⟨namesItself_latestMonth began, fun ahead => ?_⟩
  rw [month_slot valid] at ahead
  omega

theorem Scheduled.valid (scheduled : Scheduled r) (kind : r.scheduleKind = .monthly)
    (set : r.monthlyDay = some day) :
    day.Valid := by
  cases scheduled with
  | daily kind' => simp [kind] at kind'
  | weekly kind' => simp [kind] at kind'
  | monthly valid _ _ set' =>
    cases set.symm.trans set'
    exact valid

/-- A row's slot that has come is looked up as the latest. -/
theorem reached_of_past (began : 0 ≤ t) {s : Int}
    (found : recentSlot (z.calendar cron) r t = some s) (past : s ≤ t) : z.Reached r t := by
  intro kind anchor day anchored set
  have value : (z.calendar cron).mostRecentMonthly t anchor day = s := by
    simpa [recentSlot, LocalCalendar.mostRecentSlot, kind, anchored, set] using found
  exact monthReached_of_past began (value ▸ past)

theorem reached_slot (scheduled : Scheduled r) (began : 0 ≤ t) (isSlot : z.IsSlot r t) : z.Reached r t := by
  intro kind anchor day anchored set
  have valid := scheduled.valid kind set
  obtain ⟨m, _, rfl⟩ := ((slotted_monthly valid kind anchored set).slots t).mp isSlot
  exact monthReached_slot valid began

theorem reached_of_later (scheduled : Scheduled r) (began : 0 ≤ now) (le : now ≤ t)
    (still : ∀ s, z.IsSlot r s → s ≤ t → s ≤ now) (reached : z.Reached r t) : z.Reached r now := by
  intro kind anchor day anchored set
  have valid := scheduled.valid kind set
  refine monthReached_of_later valid began le (fun m past => ?_) (reached kind anchor day anchored set)
  exact still _ (((slotted_monthly valid kind anchored set).slots _).mpr ⟨m, trivial, rfl⟩) past

/-- A row's due test, met at its slots. -/
theorem dueTest_scheduled (scheduled : Scheduled r) {days : Int → Int}
    (looks : LooksUp z cron r anchor days) :
    Slots.DueTest (z.slot anchor days '' Set.univ) 0 (r.lastStartedAt.getD 0)
      fun t => (z.calendar cron).isDueNow r t = true := by
  have later : StrictMono (z.slot anchor days) := slot_strictMono looks.later
  have due : ∀ t i, 0 ≤ t → z.slot anchor days i ≤ t → t < z.slot anchor days (i + 1) →
      ((z.calendar cron).isDueNow r t = true ↔
        z.Reached r t ∧ r.lastStartedAt.getD 0 < z.slot anchor days i) := by
    intro t i began past next
    obtain ⟨j, past', next', reached⟩ := looks.between t
    have same : i = j := by
      have le := later.lt_iff_lt.mp (past.trans_lt next')
      have ge := later.lt_iff_lt.mp (past'.trans_lt next)
      omega
    subst same
    rw [isDueNow_eq scheduled]
    constructor
    · intro isDue
      obtain ⟨s, kept, fresh⟩ := (Option.any_eq_true _ _).mp isDue
      obtain ⟨found, before⟩ := Option.filter_eq_some_iff.mp kept
      have isReached := reached_of_past began found (by simpa using before)
      have same : s = z.slot anchor days i := Option.some.inj (found.symm.trans (reached.mpr isReached))
      exact ⟨isReached, by simpa [same] using fresh⟩
    · rintro ⟨isReached, fresh⟩
      rw [reached.mpr isReached]
      simp [Option.filter, past, fresh]
  have isSlot : ∀ i, z.IsSlot r (z.slot anchor days i) := fun i => (looks.slots _).mpr ⟨i, trivial, rfl⟩
  refine ⟨?_, ?_, ?_⟩
  · intro t began isDue
    obtain ⟨i, past, next, _⟩ := looks.between t
    exact ⟨_, ⟨i, trivial, rfl⟩, ((due t i began past next).mp isDue).2, past⟩
  · rintro s ⟨i, _, rfl⟩ began fresh
    exact (due _ i began le_rfl (later (by omega))).mpr ⟨reached_slot scheduled began (isSlot i), fresh⟩
  · intro now t began notDue le still isDue
    obtain ⟨i, past, next, _⟩ := looks.between now
    obtain ⟨j, past', next', _⟩ := looks.between t
    obtain ⟨reached, fresh⟩ := (due t j (by omega) past' next').mp isDue
    have early : z.slot anchor days j ≤ now := still _ ⟨j, trivial, rfl⟩ past'
    have same : j = i := by
      have le' := later.lt_iff_lt.mp (early.trans_lt next)
      have ge := later.lt_iff_lt.mp ((past.trans le).trans_lt next')
      omega
    have kept : z.Reached r now := reached_of_later scheduled began le
      (fun s member before => still s ((looks.slots s).mp member) before) reached
    exact notDue ((due now i began past next).mpr ⟨kept, same ▸ fresh⟩)

end

section
variable {z : FixedZone} {cron nextCronSlot : String → Int → Option Int} {r : SyncTaskRow}
    {anchor now t : Int}
  {day : MonthlyDay}

/-- Never started counts as started at the epoch, which is past. -/
theorem started_iff (began : 0 ≤ now) (s : Int) :
    s ≤ now ∨ r.startedSince s = true ↔ s ≤ now ∨ s ≤ r.lastStartedAt.getD 0 := by
  unfold SyncTaskRow.startedSince
  cases r.lastStartedAt with
  | none =>
    simp only [Option.any_none, Option.getD_none, Bool.false_eq_true, or_false]
    omega
  | some last => simp

/-- Looking one slot past the next one, at a scheduled row not due now. -/
theorem predicts_lookAhead (scheduled : Scheduled r) {days : Int → Int} (looks : LooksUp z cron r anchor days)
    (began : 0 ≤ now) (notDue : (z.calendar cron).isDueNow r now = false) {i : Int}
    (before : z.slot anchor days (i - 1) ≤ now) (after : now < z.slot anchor days (i + 1)) :
    Predicts (fun t => (z.calendar cron).isDueNow r t = true) now
        (some (if z.slot anchor days i ≤ now ∨ r.startedSince (z.slot anchor days i) = true
          then z.slot anchor days (i + 1) else z.slot anchor days i)) ↔
      r.lastStartedAt.getD 0 < z.slot anchor days (i + 1) := by
  have test := dueTest_scheduled scheduled looks
  have notDue : ¬(z.calendar cron).isDueNow r now = true := by simp [notDue]
  simp only [started_iff began]
  exact (test.isLeast_iff began notDue).trans
    (Slots.isLeast_lookAhead (slot_strictMono looks.later) isUpperSet_univ trivial (fun _ => before) after)

/-- A daily time shown is the next one unless the last start is as late as tomorrow's slot. -/
theorem predicts_daily (kind : r.scheduleKind = .daily) (anchored : r.anchorAt = some anchor)
    (began : 0 ≤ now)
    (notDue : (z.calendar cron).isDueNow r now = false) :
    Predicts (fun t => (z.calendar cron).isDueNow r t = true) now
        ((z.calendar cron).computeNextDueAt nextCronSlot r now) ↔
      r.lastStartedAt.getD 0 < z.slot anchor id (z.localDay now + 1) := by
  have past := slot_le_iff (z := z) anchor id now
  have clock := sinceMidnight_bounds (z := z) anchor
  have tomorrow : (z.calendar cron).addDays (z.slot anchor id (z.localDay now)) 1 =
    z.slot anchor id (z.localDay now + 1) :=
    addDays_slot _ _
  have answer : (z.calendar cron).computeNextDueAt nextCronSlot r now =
      some (if z.slot anchor id (z.localDay now) ≤ now ∨
        r.startedSince (z.slot anchor id (z.localDay now)) = true
        then z.slot anchor id (z.localDay now + 1) else z.slot anchor id (z.localDay now)) := by
    unfold LocalCalendar.computeNextDueAt
    rw [kind, anchored]
    simp only [Option.map_some, setClockTime_eq, tomorrow]
  have yesterday := past (z.localDay now - 1)
  have next := past (z.localDay now + 1)
  simp only [id_eq] at yesterday next
  rw [answer]
  exact predicts_lookAhead (.daily kind anchored) (looksUp_daily z cron kind anchored) began notDue
    (by omega) (by omega)

/-- The days on to a weekday: today only where its time is still to come. -/
theorem nextWeekdayAt_between (z : FixedZone) (cron : String → Int → Option Int) (anchor now : Int) :
    ∃ w, (z.calendar cron).nextWeekdayAt now ((z.calendar cron).weekday anchor) anchor =
      z.slot anchor (z.weekDays anchor) w ∧
      z.slot anchor (z.weekDays anchor) (w - 1) ≤ now ∧ now < z.slot anchor (z.weekDays anchor) w := by
  have past := slot_le_iff (z := z) anchor (z.weekDays anchor) now
  have today := slot_le_iff (z := z) anchor id now (z.localDay now)
  simp only [id_eq, lt_irrefl, true_and, false_or] at today
  unfold LocalCalendar.nextWeekdayAt
  dsimp only
  rw [setClockTime_eq, weekday_slot, id_eq]
  have target : (z.calendar cron).weekday anchor = ((z.localDay anchor + 4) % 7).toNat := rfl
  rw [target]
  generalize delta : (((z.localDay anchor + 4) % 7).toNat + 7 - ((z.localDay now + 4) % 7).toNat) % 7 = d
  have reached : ∀ w n, z.localDay now + n = z.weekDays anchor w →
      (z.calendar cron).addDays (z.slot anchor id (z.localDay now)) n =
        z.slot anchor (z.weekDays anchor) w := by
    intro w n same
    rw [addDays_slot, id_eq, same]
    rfl
  obtain ⟨w, ahead⟩ : ∃ w, z.localDay now + d = z.weekDays anchor w := by
    unfold weekDays
    exact ⟨(z.localDay now + d - z.localDay anchor) / 7, by omega⟩
  have week : ∀ w, z.weekDays anchor w = z.localDay anchor + 7 * w := fun _ => rfl
  by_cases come : d = 0 ∧ z.slot anchor id (z.localDay now) ≤ now
  · have here := past w
    have next := past (w + 1)
    have same : w + 1 - 1 = w := by omega
    have thisDay := week w
    have nextDay := week (w + 1)
    rw [if_pos come]
    refine ⟨w + 1, reached _ _ (by omega), ?_, by omega⟩
    rw [same]
    exact here.mpr (.inr ⟨by omega, today.mp come.2⟩)
  · have before := past (w - 1)
    have here := past w
    have thisDay := week w
    have lastDay := week (w - 1)
    rw [if_neg come]
    exact ⟨w, reached _ _ ahead, by omega, by omega⟩

theorem slot_weekDays_succ (w : Int) :
    z.slot anchor (z.weekDays anchor) (w + 1) = z.slot anchor (z.weekDays anchor) w + 7 * MS_PER_DAY := by
  unfold slot weekDays instant MS_PER_DAY
  omega

/-- A weekly time shown is the next one unless the last start is as late as the slot behind it. -/
theorem predicts_weekly (kind : r.scheduleKind = .weekly) (anchored : r.anchorAt = some anchor)
    (began : 0 ≤ now)
    (notDue : (z.calendar cron).isDueNow r now = false) :
    Predicts (fun t => (z.calendar cron).isDueNow r t = true) now
        ((z.calendar cron).computeNextDueAt nextCronSlot r now) ↔
      ∀ s, z.IsSlot r s → now < s → r.lastStartedAt.getD 0 < s + 7 * MS_PER_DAY := by
  obtain ⟨w, found, before, after⟩ := nextWeekdayAt_between z cron anchor now
  have looks := looksUp_weekly z cron kind anchored
  have later : StrictMono (z.slot anchor (z.weekDays anchor)) := slot_strictMono looks.later
  have weekOn : (z.calendar cron).addDays (z.slot anchor (z.weekDays anchor) w) 7 =
      z.slot anchor (z.weekDays anchor) (w + 1) := by
    rw [addDays_slot]
    unfold slot weekDays instant MS_PER_DAY
    omega
  have ahead : ∀ p : Prop, (z.slot anchor (z.weekDays anchor) w ≤ now ∨ p) = p := by
    intro p
    simp only [eq_iff_iff, or_iff_right_iff_imp]
    omega
  have answer : (z.calendar cron).computeNextDueAt nextCronSlot r now =
      some (if z.slot anchor (z.weekDays anchor) w ≤ now ∨
        r.startedSince (z.slot anchor (z.weekDays anchor) w) = true
        then z.slot anchor (z.weekDays anchor) (w + 1) else z.slot anchor (z.weekDays anchor) w) := by
    unfold LocalCalendar.computeNextDueAt
    rw [kind, anchored]
    simp only [Option.map_some, found, weekOn, ahead]
  have next := later (by omega : w < w + 1)
  rw [answer, predicts_lookAhead (.weekly kind anchored) looks began notDue before (by omega),
    slot_weekDays_succ]
  constructor
  · rintro fresh s isSlot future
    obtain ⟨i, _, rfl⟩ := (looks.slots s).mp isSlot
    have least : w ≤ i := by
      have := later.lt_iff_lt.mp (before.trans_lt future)
      omega
    have := later.monotone least
    omega
  · intro all
    exact all _ ((looks.slots _).mpr ⟨w, trivial, rfl⟩) after

/-- The month a time a month on is found in, from a month's slot. -/
def nextMonth (day : MonthlyDay) (m : Int) : Int :=
  if monthDay day m - monthStart m + 1 ≤ monthLength (m + 1) then m + 1 else m + 2

/-- A monthly time shown is the next one where adding a month lands in the next month. -/
theorem predicts_monthly (valid : day.Valid) (kind : r.scheduleKind = .monthly)
    (anchored : r.anchorAt = some anchor)
    (set : r.monthlyDay = some day) (began : 0 ≤ now) (notDue : (z.calendar cron).isDueNow r now = false) :
    Predicts (fun t => (z.calendar cron).isDueNow r t = true) now
        ((z.calendar cron).computeNextDueAt nextCronSlot r now) ↔
      (z.slot anchor (monthDay day) (z.month now) ≤ now ∨
          z.slot anchor (monthDay day) (z.month now) ≤ r.lastStartedAt.getD 0 →
        r.lastStartedAt.getD 0 < z.slot anchor (monthDay day) (nextMonth day (z.month now)) ∧
          (nextMonth day (z.month now) ≠ z.month now + 1 →
            z.slot anchor (monthDay day) (z.month now + 1) ≤ r.lastStartedAt.getD 0)) := by
  have looks := looksUp_monthly z cron valid kind anchored set
  have later : StrictMono (z.slot anchor (monthDay day)) := slot_strictMono looks.later
  have itself : fullMonth (z.month now) = z.month now := fullMonth_month (z := z) began (by omega)
  have itself' : fullMonth (nextMonth day (z.month now)) = nextMonth day (z.month now) := by
    refine fullMonth_month (z := z) began ?_
    unfold nextMonth
    split <;> omega
  have monthOn : z.month ((z.calendar cron).addMonths (z.slot anchor (monthDay day) (z.month now)) 1) =
      nextMonth day (z.month now) := by
    rw [month_addMonths, month_slot valid]
    unfold dayOfMonth nextMonth
    rw [localDay_slot, month_slot valid]
    split <;> omega
  have answer : (z.calendar cron).computeNextDueAt nextCronSlot r now =
      some (if z.slot anchor (monthDay day) (z.month now) ≤ now ∨
          r.startedSince (z.slot anchor (monthDay day) (z.month now)) = true
        then z.slot anchor (monthDay day) (nextMonth day (z.month now))
        else z.slot anchor (monthDay day) (z.month now)) := by
    unfold LocalCalendar.computeNextDueAt
    rw [kind, anchored, set]
    simp only [monthlySlotForMonth_eq, itself, monthOn, itself']
  obtain ⟨before, after⟩ := month_between z anchor now valid
  have notDue : ¬(z.calendar cron).isDueNow r now = true := by simp [notDue]
  have test := dueTest_scheduled (.monthly valid kind anchored set) looks
  have least := fun i => (test.isLeast_iff (a := z.slot anchor (monthDay day) i) began notDue).trans
    (Slots.isLeast_iff later isUpperSet_univ (trivial : i ∈ Set.univ))
  rw [answer]
  simp only [started_iff began]
  by_cases looked : z.slot anchor (monthDay day) (z.month now) ≤ now ∨
      z.slot anchor (monthDay day) (z.month now) ≤ r.lastStartedAt.getD 0
  · rw [if_pos looked]
    refine (least _).trans ?_
    have order := later (by omega : z.month now + 1 < z.month now + 2)
    unfold nextMonth
    split
    next =>
      have same : z.month now + 1 - 1 = z.month now := by omega
      rw [same]
      constructor
      · rintro ⟨_, fresh, _⟩ _
        exact ⟨fresh, fun other => absurd rfl other⟩
      · intro h
        exact ⟨after, (h looked).1, fun _ => looked⟩
    next =>
      have same : z.month now + 2 - 1 = z.month now + 1 := by omega
      rw [same]
      constructor
      · rintro ⟨_, fresh, between⟩ _
        exact ⟨fresh, fun _ => by have := between trivial; omega⟩
      · intro h
        obtain ⟨fresh, started⟩ := h looked
        exact ⟨by omega, fresh, fun _ => .inr (started (by omega))⟩
  · rw [if_neg looked]
    refine (least _).trans ?_
    constructor
    · intro _ also
      exact absurd also looked
    · intro _
      exact ⟨by omega, by omega, fun _ => .inl before⟩

/-- The first slot of an anchored interval at or after now. -/
theorem exists_candidate {interval : Int} (positive : 0 < interval) (anchor now : Int) :
    ∃ n, 0 ≤ n ∧ anchor + -(-max 0 (now - anchor) / interval) * interval = Slots.every anchor interval n ∧
      now ≤ Slots.every anchor interval n ∧
      (n - 1 ∈ Set.Ici 0 → Slots.every anchor interval (n - 1) < now) := by
  have later : StrictMono (Slots.every anchor interval) := Slots.every_strictMono positive
  have start : Slots.every anchor interval 0 = anchor := by simp [Slots.every]
  by_cases began : anchor ≤ now
  · obtain ⟨before, after⟩ := Slots.every_ceil anchor positive now
    have elapsed : max 0 (now - anchor) = now - anchor := by omega
    refine ⟨-(-(now - anchor) / interval), ?_, by rw [elapsed]; rfl, after, fun _ => before⟩
    have := later.le_iff_le.mp (start.le.trans (began.trans after))
    exact this
  · have elapsed : max 0 (now - anchor) = 0 := by omega
    refine ⟨0, le_rfl, by simp [elapsed, Slots.every], by omega, fun member => ?_⟩
    exact absurd (show (0 : Int) ≤ 0 - 1 from member) (by omega)

/-- An anchored interval is due where its latest slot came after its last start. -/
theorem isDueNow_anchored (kind : r.scheduleKind = .interval ∨ r.scheduleKind = .hourly)
    (positive : 0 < r.intervalMinutes * 60000) (anchored : r.anchorAt = some anchor) (t : Int) :
    (z.calendar cron).isDueNow r t = true ↔ anchor ≤ t ∧
      r.lastStartedAt.getD 0 < Slots.every anchor (r.intervalMinutes * 60000)
      ((t - anchor) / (r.intervalMinutes * 60000)) := by
  unfold LocalCalendar.isDueNow Slots.every
  rcases kind with kind | kind <;> simp [kind, anchored, not_le.mpr positive]

theorem computeNextDueAt_anchored (kind : r.scheduleKind = .interval ∨ r.scheduleKind = .hourly)
    (positive : 0 < r.intervalMinutes * 60000) (anchored : r.anchorAt = some anchor) {a : Int}
    (candidate : anchor + -(-max 0 (now - anchor) / (r.intervalMinutes * 60000)) *
      (r.intervalMinutes * 60000) = a) :
    (z.calendar cron).computeNextDueAt nextCronSlot r now =
      some (if r.startedSince a then a + r.intervalMinutes * 60000 else a) := by
  unfold LocalCalendar.computeNextDueAt
  rcases kind with kind | kind
  · simp only [kind, anchored, not_le.mpr positive, if_false, candidate]
    split <;> rfl
  · simp only [kind, anchored, not_le.mpr positive, if_false, candidate]
    split <;> rfl

/-- What is asked of every slot to come is asked of the first one. -/
theorem coming_slots {interval last n : Int} {never : Prop} (positive : 0 < interval) (nonneg : 0 ≤ n)
    (after : now ≤ Slots.every anchor interval n)
    (before : n - 1 ∈ Set.Ici 0 → Slots.every anchor interval (n - 1) < now) :
    (∀ s ∈ Slots.every anchor interval '' Set.Ici 0, now ≤ s → last < s + interval ∧ (never → now ≠ s)) ↔
      last < Slots.every anchor interval (n + 1) ∧ (never → now ≠ Slots.every anchor interval n) := by
  have later : StrictMono (Slots.every anchor interval) := Slots.every_strictMono positive
  have endless : IsUpperSet (Set.Ici (0 : Int)) := isUpperSet_Ici 0
  rw [Slots.every_succ n]
  constructor
  · intro all
    exact all _ ⟨n, nonneg, rfl⟩ after
  · rintro ⟨fresh, unstarted⟩ s ⟨i, member, rfl⟩ coming
    have atLeast : n ≤ i := by
      by_contra earlier
      have upTo := later.monotone (by omega : i ≤ n - 1)
      have := before (endless (by omega : i ≤ n - 1) member)
      omega
    have := later.monotone atLeast
    refine ⟨by omega, fun never_ => ?_⟩
    have := unstarted never_
    omega

/-- At the first slot to come, where it isn't now for want of a start, what is looked at is the last start. -/
theorem startedSince_coming {slot : Int} (began : 0 ≤ now) (after : now ≤ slot)
    (unstarted : r.lastStartedAt = none → now ≠ slot) (passed : slot ≤ now → slot ≤ r.lastStartedAt.getD 0) :
    (slot ≤ now ∨ slot ≤ r.lastStartedAt.getD 0) ↔ r.startedSince slot = true := by
  constructor
  · intro either
    have started := either.elim passed id
    unfold SyncTaskRow.startedSince
    cases last : r.lastStartedAt with
    | none =>
      rw [last] at started unstarted
      have := unstarted rfl
      simp only [Option.getD_none] at started
      omega
    | some last' =>
      rw [last] at started
      simpa using started
  · intro started
    exact (started_iff began _).mp (.inr started)

/-- An interval's time shown is the next one unless the last start is past it, or never was and now
is a slot. -/
theorem predicts_anchored (kind : r.scheduleKind = .interval ∨ r.scheduleKind = .hourly)
    (positive : 0 < r.intervalMinutes * 60000) (anchored : r.anchorAt = some anchor) (began : 0 ≤ now)
    (notDue : (z.calendar cron).isDueNow r now = false) :
    Predicts (fun t => (z.calendar cron).isDueNow r t = true) now
        ((z.calendar cron).computeNextDueAt nextCronSlot r now) ↔
      ∀ s ∈ Slots.every anchor (r.intervalMinutes * 60000) '' Set.Ici 0, now ≤ s →
        r.lastStartedAt.getD 0 < s + r.intervalMinutes * 60000 ∧ (r.lastStartedAt = none → now ≠ s) := by
  obtain ⟨n, nonneg, candidate, after, before⟩ := exists_candidate positive anchor now
  rw [← Bool.not_eq_true, isDueNow_anchored kind positive anchored] at notDue
  rw [computeNextDueAt_anchored kind positive anchored candidate, coming_slots positive nonneg after before]
  simp only [isDueNow_anchored kind positive anchored]
  generalize r.intervalMinutes * 60000 = interval at *
  have later : StrictMono (Slots.every anchor interval) := Slots.every_strictMono positive
  have next : Slots.every anchor interval (n + 1) = Slots.every anchor interval n + interval :=
    Slots.every_succ n
  rw [← next]
  by_cases edge : r.lastStartedAt = none ∧ now = Slots.every anchor interval n
  · -- never started, and the epoch is a slot: the answer is now
    obtain ⟨never, atNow⟩ := edge
    have answered : r.startedSince (Slots.every anchor interval n) = false := by
      simp [SyncTaskRow.startedSince, never]
    simp only [answered, Bool.false_eq_true, if_false]
    constructor
    · rintro ⟨⟨future, _⟩, _⟩
      omega
    · rintro ⟨_, unstarted⟩
      exact absurd atNow (unstarted never)
  · have unstarted : r.lastStartedAt = none → now ≠ Slots.every anchor interval n :=
      fun never same => edge ⟨never, same⟩
    have passed : Slots.every anchor interval n ≤ now →
      Slots.every anchor interval n ≤ r.lastStartedAt.getD 0 := by
      intro past
      have atNow : now = Slots.every anchor interval n := le_antisymm after past
      have index : (now - anchor) / interval = n := atNow ▸ Slots.every_index positive n
      have start : Slots.every anchor interval 0 = anchor := by simp [Slots.every]
      have began' := later.monotone nonneg
      rw [index] at notDue
      omega
    simp only [← startedSince_coming began after unstarted passed]
    have test := Slots.dueTest_every anchor positive 0 (r.lastStartedAt.getD 0)
    refine (test.isLeast_iff began notDue).trans ?_
    rw [Slots.isLeast_lookAhead later (isUpperSet_Ici 0) nonneg (fun member => (before member).le) (by omega)]
    exact ⟨fun fresh => ⟨fresh, unstarted⟩, fun h => h.1⟩

/-- No interval: never due, and no time shown. -/
theorem predicts_idle (kind : r.scheduleKind = .interval ∨ r.scheduleKind = .hourly)
    (idle : r.intervalMinutes * 60000 ≤ 0) :
    Predicts (fun t => (z.calendar cron).isDueNow r t = true) now
      ((z.calendar cron).computeNextDueAt nextCronSlot r now) := by
  have answer : (z.calendar cron).computeNextDueAt nextCronSlot r now = none := by
    unfold LocalCalendar.computeNextDueAt
    rcases kind with kind | kind <;> simp [kind, idle]
  rw [answer]
  intro t _
  unfold LocalCalendar.isDueNow
  rcases kind with kind | kind <;> simp [kind, idle]

/-- Without an anchor: an interval after the last start. -/
theorem predicts_unanchored (kind : r.scheduleKind = .interval ∨ r.scheduleKind = .hourly)
    (positive : 0 < r.intervalMinutes * 60000) (unanchored : r.anchorAt = none)
    (notDue : (z.calendar cron).isDueNow r now = false) :
    Predicts (fun t => (z.calendar cron).isDueNow r t = true) now
      ((z.calendar cron).computeNextDueAt nextCronSlot r now) := by
  have due : ∀ t, (z.calendar cron).isDueNow r t = true ↔
      r.lastStartedAt.getD 0 = 0 ∨ r.intervalMinutes * 60000 ≤ t - r.lastStartedAt.getD 0 := by
    intro t
    unfold LocalCalendar.isDueNow
    rcases kind with kind | kind <;> simp [kind, unanchored, not_le.mpr positive]
  have idleNow : ¬(r.lastStartedAt.getD 0 = 0 ∨ r.intervalMinutes * 60000 ≤ now - r.lastStartedAt.getD 0) :=
    fun isDue => by simp [(due now).mpr isDue] at notDue
  cases last : r.lastStartedAt with
  | none =>
    rw [last] at idleNow
    exact absurd (.inl rfl) idleNow
  | some start =>
    have answer : (z.calendar cron).computeNextDueAt nextCronSlot r now =
      some (start + r.intervalMinutes * 60000) := by
      unfold LocalCalendar.computeNextDueAt
      rcases kind with kind | kind <;> simp [kind, unanchored, not_le.mpr positive, last]
    rw [answer]
    simp only [last, Option.getD_some] at due idleNow
    simp only [due]
    refine ⟨⟨by omega, .inr (by omega)⟩, ?_⟩
    rintro t ⟨future, isDue⟩
    omega

/-- The last start isn't past the slot the answer can reach, and, monthly, next month has the day of
this month's slot. -/
def Foreseen (z : FixedZone) (r : SyncTaskRow) (now : Int) : Prop :=
  let last := r.lastStartedAt.getD 0
  match r.scheduleKind, r.anchorAt, r.monthlyDay with
  | .interval, some anchor, _ | .hourly, some anchor, _ =>
    let interval := r.intervalMinutes * 60000
    0 < interval → ∀ s ∈ Slots.every anchor interval '' Set.Ici 0, now ≤ s →
      last < s + interval ∧ (r.lastStartedAt = none → now ≠ s)
  | .daily, some anchor, _ => last < z.slot anchor id (z.localDay now + 1)
  | .weekly, some _, _ => ∀ s, z.IsSlot r s → now < s → last < s + 7 * MS_PER_DAY
  | .monthly, some anchor, some day =>
    let m := z.month now
    z.slot anchor (monthDay day) m ≤ now ∨ z.slot anchor (monthDay day) m ≤ last →
      last < z.slot anchor (monthDay day) (nextMonth day m) ∧
        (nextMonth day m ≠ m + 1 → z.slot anchor (monthDay day) (m + 1) ≤ last)
  | _, _, _ => True

/-- The time shown for a task that isn't due is the first it is due at, exactly where that is foreseen. -/
theorem nextDue_iff (z : FixedZone) (cron nextCronSlot : String → Int → Option Int)
    (r : SyncTaskRow) (clock : Nat)
    (notCron : r.scheduleKind ≠ .cron) (valid : ∀ day, r.monthlyDay = some day → day.Valid)
    (notDue : (z.calendar cron).isDueNow r clock = false) :
    Predicts (fun t => (z.calendar cron).isDueNow r t = true) clock
        ((z.calendar cron).computeNextDueAt nextCronSlot r clock) ↔
      z.Foreseen r clock := by
  have began : (0 : Int) ≤ clock := by omega
  unfold Foreseen
  cases kind : r.scheduleKind with
  | cron => exact absurd kind notCron
  | interval | hourly =>
    by_cases positive : 0 < r.intervalMinutes * 60000
    · cases anchored : r.anchorAt with
      | none => simpa using predicts_unanchored (by simp [kind]) positive anchored notDue
      | some anchor =>
        rw [predicts_anchored (by simp [kind]) positive anchored began notDue]
        simp [positive]
    · have idle : Predicts (fun t => (z.calendar cron).isDueNow r t = true) clock
          ((z.calendar cron).computeNextDueAt nextCronSlot r clock) :=
        predicts_idle (by simp [kind]) (not_lt.mp positive)
      cases r.anchorAt with
      | none => simpa using idle
      | some anchor => simpa [positive] using idle
  | daily =>
    cases anchored : r.anchorAt with
    | none => simp [LocalCalendar.computeNextDueAt, LocalCalendar.isDueNow, LocalCalendar.pastSlot,
      kind, anchored, Predicts]
    | some anchor => exact predicts_daily kind anchored began notDue
  | weekly =>
    cases anchored : r.anchorAt with
    | none => simp [LocalCalendar.computeNextDueAt, LocalCalendar.isDueNow, LocalCalendar.pastSlot,
      kind, anchored, Predicts]
    | some anchor => exact predicts_weekly kind anchored began notDue
  | monthly =>
    cases anchored : r.anchorAt with
    | none => simp [LocalCalendar.computeNextDueAt, LocalCalendar.isDueNow, LocalCalendar.pastSlot,
      kind, anchored, Predicts]
    | some anchor =>
      cases set : r.monthlyDay with
      | none => simp [LocalCalendar.computeNextDueAt, LocalCalendar.isDueNow,
        LocalCalendar.pastSlot, kind, anchored, set, Predicts]
      | some day => exact predicts_monthly (valid day set) kind anchored set began notDue

end

/-- After January's run, on the 31st: February's slot isn't the one shown. -/
theorem february_skipped :
    let due := fun t => (UTC.calendar fun _ _ => none).isDueNow (monthEnd (some 1769828400000)) t
    due 1769830200000 = false ∧
      (UTC.calendar fun _ _ => none).computeNextDueAt (fun _ _ => none)
        (monthEnd (some 1769828400000)) 1769830200000 =
        some 1774926000000 ∧
      1769830200000 < (1772247600000 : Int) ∧ (1772247600000 : Int) < 1774926000000 ∧
        due 1772247600000 = true := by
  decide

/-- From the first of February it is. -/
theorem nextDue_iff_february :
    Predicts (fun t => (UTC.calendar fun _ _ => none).isDueNow
      (monthEnd (some 1769828400000)) t = true) 1769904000000
      (some 1772247600000) := by
  have answer : (UTC.calendar fun _ _ => none).computeNextDueAt (fun _ _ => none)
    (monthEnd (some 1769828400000))
      1769904000000 = some 1772247600000 := by decide
  have valid : ∀ day, (monthEnd (some 1769828400000)).monthlyDay = some day → day.Valid := by
    rintro day ⟨⟩
    trivial
  have foreseen : UTC.Foreseen (monthEnd (some 1769828400000)) 1769904000000 := by
    have ahead : ¬(UTC.slot 2602800000 (monthDay .last) (UTC.month 1769904000000) ≤ 1769904000000 ∨
        UTC.slot 2602800000 (monthDay .last) (UTC.month 1769904000000) ≤ 1769828400000) := by decide
    exact fun looked => absurd looked ahead
  have predicted :=
    (nextDue_iff UTC (fun _ _ => none) (fun _ _ => none) (monthEnd (some 1769828400000)) 1769904000000
    (by decide) valid (by decide)).mpr foreseen
  exact answer ▸ predicted

end FixedZone
end OpenAduc.Sync
