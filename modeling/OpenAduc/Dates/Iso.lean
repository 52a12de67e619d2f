import OpenAduc.Naming.Decimal
import OpenAduc.Sync.Calendar

namespace OpenAduc.Dates
open Naming (Text text unit decimal)
open Sync (MS_PER_DAY monthStart monthLength monthOf monthOf_eq monthOf_spec fullYear)

/-- The day a year, a month from 1 and a day from 1 name, as days since the start of 1970. -/
def dayNumber (y m d : Int) : Int := monthStart (12 * y + (m - 1)) + (d - 1)

/-- `Date.UTC`, which takes a year from 0 to 99 for one of the 1900s. -/
def dateUTC (y m d : Int) : Int := dayNumber (fullYear y) m d * MS_PER_DAY

/-- A date of the calendar. -/
structure RealDate (y m d : Int) : Prop where
  month : 1 ≤ m ∧ m ≤ 12
  day : 1 ≤ d ∧ d ≤ monthLength (12 * y + (m - 1))

instance (y m d : Int) : Decidable (RealDate y m d) :=
  decidable_of_iff ((1 ≤ m ∧ m ≤ 12) ∧ 1 ≤ d ∧ d ≤ monthLength (12 * y + (m - 1)))
    ⟨fun ⟨month, day⟩ => ⟨month, day⟩, fun real => ⟨real.month, real.day⟩⟩

def yearOfDay (day : Int) : Int := monthOf day / 12

def monthOfDay (day : Int) : Int := monthOf day % 12 + 1

def dayOfMonth (day : Int) : Int := day - monthStart (monthOf day) + 1

/-- A real date's day has that date. -/
theorem RealDate.parts {y m d : Int} (real : RealDate y m d) :
    yearOfDay (dayNumber y m d) = y ∧ monthOfDay (dayNumber y m d) = m ∧
      dayOfMonth (dayNumber y m d) = d := by
  obtain ⟨⟨first, last⟩, start, ends⟩ := real
  have isMonth : monthOf (dayNumber y m d) = 12 * y + (m - 1) := by
    unfold monthLength at ends
    unfold dayNumber
    exact monthOf_eq (by omega) (by omega)
  refine ⟨?_, ?_, ?_⟩
  · rw [yearOfDay, isMonth]
    omega
  · rw [monthOfDay, isMonth]
    omega
  · rw [dayOfMonth, isMonth, dayNumber]
    omega

/-- The date a day has is a real one, and names the day. -/
theorem realDate_of_day (day : Int) :
    RealDate (yearOfDay day) (monthOfDay day) (dayOfMonth day) ∧
      dayNumber (yearOfDay day) (monthOfDay day) (dayOfMonth day) = day := by
  obtain ⟨started, ends⟩ := monthOf_spec day
  have same : 12 * yearOfDay day + (monthOfDay day - 1) = monthOf day := by
    unfold yearOfDay monthOfDay
    omega
  refine ⟨⟨?_, ?_⟩, ?_⟩
  · unfold monthOfDay
    omega
  · rw [same]
    unfold monthLength dayOfMonth
    omega
  · rw [dayNumber, same, dayOfMonth]
    omega

/-- A number in so many digits at least. -/
def padded (width n : Nat) : Text := List.replicate (width - (decimal n).length) (unit '0') ++ decimal n

def isoYear (y : Int) : Text :=
  if 0 ≤ y ∧ y ≤ 9999 then padded 4 y.toNat else unit (if y < 0 then '-' else '+') :: padded 6 y.natAbs

/-- The date part of what `toISOString` gives. -/
def isoDay (day : Int) : Text :=
  isoYear (yearOfDay day) ++ text "-" ++ padded 2 (monthOfDay day).toNat ++ text "-" ++
    padded 2 (dayOfMonth day).toNat

def toISOString (t : Int) : Text :=
  let ms := (t % MS_PER_DAY).toNat
  isoDay (t / MS_PER_DAY) ++ text "T" ++ padded 2 (ms / 3600000) ++ text ":" ++
    padded 2 (ms / 60000 % 60) ++ text ":" ++
    padded 2 (ms / 1000 % 60) ++ text "." ++ padded 3 (ms % 1000) ++ text "Z"

end OpenAduc.Dates
