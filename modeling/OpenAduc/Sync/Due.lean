import OpenAduc.Sync.Store

namespace OpenAduc.Sync

/-- What a time of day is: hours, minutes and seconds. -/
abbrev ClockTime := Nat × Nat × Nat

/-- The process's local calendar, which its time zone decides, and the cron
library read in it. -/
structure LocalCalendar where
  clockTime : Int → ClockTime
  /-- `setHours(h, m, s, 0)`. -/
  setClockTime : Int → ClockTime → Int
  /-- `getDay()`, Sunday being 0. -/
  weekday : Int → Nat
  /-- `setDate(getDate() + days)`. -/
  addDays : Int → Int → Int
  /-- `setMonth(getMonth() + months)`. -/
  addMonths : Int → Int → Int
  year : Int → Int
  month : Int → Int
  dayOfMonth : Int → Int
  /-- `new Date(year, month, day, …)`, a day 0 being the last of the month before. -/
  date : Int → Int → Int → ClockTime → Int
  /-- The latest time a cron expression names, where it is valid. -/
  previousCronSlot : String → Int → Option Int

namespace LocalCalendar
variable (c : LocalCalendar)

def monthlySlotForMonth (monthMarker : Int) (monthlyDay : MonthlyDay) (time : Int) : Int :=
  let year := c.year monthMarker
  let month := c.month monthMarker
  let day :=
    match monthlyDay with
    | .last => c.dayOfMonth (c.date year (month + 1) 0 (0, 0, 0))
    | .day n => (n : Int)
  c.date year month day (c.clockTime time)

def mostRecentDaily (now anchor : Int) : Int :=
  let today := c.setClockTime now (c.clockTime anchor)
  if today ≤ now then today else c.addDays today (-1)

def mostRecentWeekly (now anchor : Int) : Int :=
  let slot := c.setClockTime now (c.clockTime anchor)
  let delta := (c.weekday slot + 7 - c.weekday anchor) % 7
  let slot := c.addDays slot (-(delta : Int))
  if now < slot then c.addDays slot (-7) else slot

def mostRecentMonthly (now anchor : Int) (monthlyDay : MonthlyDay) : Int :=
  let slot := c.monthlySlotForMonth now monthlyDay anchor
  if now < slot then c.monthlySlotForMonth (c.addMonths now (-1)) monthlyDay anchor else slot

/-- `mostRecentSlot`, a slot still to come counting as none, as `isDueNow` takes it. -/
def pastSlot (r : SyncTaskRow) (now : Int) : Option Int :=
  match r.scheduleKind with
  | .interval | .hourly => none
  | .daily => (r.anchorAt.map (c.mostRecentDaily now)).filter (· ≤ now)
  | .weekly => (r.anchorAt.map (c.mostRecentWeekly now)).filter (· ≤ now)
  | .monthly =>
    match r.anchorAt, r.monthlyDay with
    | some anchor, some day => (some (c.mostRecentMonthly now anchor day)).filter (· ≤ now)
    | _, _ => none
  | .cron => (r.cronExpr.filter (· ≠ "")).bind (c.previousCronSlot · now)

/-- Whether the row's cadence asks for a run now. -/
def isDueNow (r : SyncTaskRow) (now : Int) : Bool :=
  let last := r.lastStartedAt.getD 0
  match r.scheduleKind with
  | .interval | .hourly =>
    let interval := r.intervalMinutes * 60000
    if interval ≤ 0 then false
    else
      match r.anchorAt with
      | none => last = 0 || interval ≤ now - last
      | some anchor => anchor ≤ now && last < anchor + (now - anchor) / interval * interval
  | _ => (c.pastSlot r now).any (last < ·)

end LocalCalendar
end OpenAduc.Sync
