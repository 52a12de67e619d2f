import OpenAduc.Dates.Iso
import OpenAduc.Lib.Scan
import OpenAduc.Naming.Accepted

namespace OpenAduc.UserImport
open Naming (Text text unit trim isSpace isDigit isLower isUpper lowerUnit decimal decimalOf digit
  decimal_small
  decimal_append decimal_digits decimal_ne_nil decimalOf_decimal trim_bare isDigit_digit)
open Sync (MS_PER_DAY monthStart monthLength monthStart_strictMono fullYear)
open Dates (dayNumber dateUTC RealDate realDate_of_day yearOfDay monthOfDay dayOfMonth padded isoDay
  isoYear toISOString)
open Scan (run one skip Stops stops_nil stops_cons stops_append stops_of_ne_nil run_append run_unfit
  run_spec one_cons
  one_stops skip_cons skip_stops)

structure Read where
  value : Option Text
  problem : Option Text
  deriving DecidableEq

def MONTHS : List Text :=
  ["jan", "feb", "mar", "apr", "may", "jun", "jul", "aug", "sep", "oct", "nov", "dec"].map text

def MONTH_NAMES : List Text :=
  ["January", "February", "March", "April", "May", "June", "July", "August", "September",
    "October", "November",
    "December"].map text

def isoDate (y m d : Nat) : Option Text :=
  let date := dateUTC y m d
  if yearOfDay (date / MS_PER_DAY) = y ∧ monthOfDay (date / MS_PER_DAY) = m ∧
    dayOfMonth (date / MS_PER_DAY) = d then
    some ((toISOString date).take 10)
  else none

def oneOrTwo (n : Nat) : Bool := n = 1 ∨ n = 2

def isAscii (c : UInt16) : Bool := isLower c || isUpper c

/-- Between the numbers of a date: a hyphen, a slash or a dot. -/
def isMark (c : UInt16) : Bool := c = unit '-' ∨ c = unit '/' ∨ c = unit '.'

/-- Between the words of a date. -/
def isGap (c : UInt16) : Bool := isSpace c || c = unit '-'

/-- What is after a time of day's optional seconds. -/
def skipSeconds (t : Text) : Option Text :=
  match one (· = unit ':') t with
  | some rest => (run isDigit (· = 2) rest).map (·.2)
  | none => some t

def skipFraction (t : Text) : Option Text :=
  match one (· = unit '.') t with
  | some rest => (run isDigit (0 < ·) rest).map (·.2)
  | none => some t

/-- `[ T]\d{1,2}:\d{2}(:\d{2})?(\.\d+)?$` at the start. -/
def timeIn (t : Text) : Option Unit := do
  let t ← one (fun c => c = unit ' ' ∨ c = unit 'T') t
  let (_, t) ← run isDigit oneOrTwo t
  let t ← one (· = unit ':') t
  let (_, t) ← run isDigit (· = 2) t
  let t ← skipSeconds t
  let t ← skipFraction t
  guard (t = [])

/-- The text up to the first place where a time of day is all that is left. -/
def withoutTime : Text → Text
  | [] => []
  | c :: rest => if (timeIn (c :: rest)).isSome then [] else c :: withoutTime rest

/-- `^(\d{4})[/.-](\d{1,2})[/.-](\d{1,2})$` -/
def yearFirst (v : Text) : Option (Text × Text × Text) := do
  let (y, v) ← run isDigit (· = 4) v
  let v ← one isMark v
  let (m, v) ← run isDigit oneOrTwo v
  let v ← one isMark v
  let (d, v) ← run isDigit oneOrTwo v
  if v = [] then some (y, m, d) else none

/-- `^(\d{1,2})[/.-](\d{1,2})[/.-](\d{4})$` -/
def yearLast (v : Text) : Option (Text × Text × Text) := do
  let (a, v) ← run isDigit oneOrTwo v
  let v ← one isMark v
  let (b, v) ← run isDigit oneOrTwo v
  let v ← one isMark v
  let (y, v) ← run isDigit (· = 4) v
  if v = [] then some (a, b, y) else none

def ORDINALS : List Text := ["st", "nd", "rd", "th"].map text

def skipOrdinal (t : Text) : Text := if t.take 2 ∈ ORDINALS then t.drop 2 else t

/-- `^(\d{1,2})(?:st|nd|rd|th)?[\s-]+([A-Za-z]{3,})\.?,?[\s-]+(\d{4}|\d{2})$` -/
def dayMonthYear (v : Text) : Option (Text × Text × Text) := do
  let (d, v) ← run isDigit oneOrTwo v
  let (_, v) ← run isGap (0 < ·) (skipOrdinal v)
  let (mon, v) ← run isAscii (3 ≤ ·) v
  let (_, v) ← run isGap (0 < ·) (skip (· = unit ',') (skip (· = unit '.') v))
  let (y, v) ← run isDigit (fun n => n = 4 ∨ n = 2) v
  if v = [] then some (d, mon, y) else none

/-- `^([A-Za-z]{3,})\.?\s+(\d{1,2})(?:st|nd|rd|th)?,?\s+(\d{4})$` -/
def monthDayYear (v : Text) : Option (Text × Text × Text) := do
  let (mon, v) ← run isAscii (3 ≤ ·) v
  let (_, v) ← run isSpace (0 < ·) (skip (· = unit '.') v)
  let (d, v) ← run isDigit oneOrTwo v
  let (_, v) ← run isSpace (0 < ·) (skip (· = unit ',') (skipOrdinal v))
  let (y, v) ← run isDigit (· = 4) v
  if v = [] then some (d, mon, y) else none

/-- A month's number by its name's first three letters; 0 when it's none. -/
def month (name : Text) : Nat :=
  match MONTHS.idxOf? ((name.take 3).map lowerUnit) with
  | some i => i + 1
  | none => 0

/-- The number a year's digits name: two of them are this century's. -/
def yearOfDigits (y : Text) : Nat := if y.length = 2 then 2000 + decimalOf y else decimalOf y

def notADate (input : Text) : Read :=
  { value := none, problem :=
    some (text "“" ++ trim input ++ text "” isn’t a date. Write it as 2026-11-03.") }

def readOr (bad : Read) : Option Text → Read
  | some value => { value := some value, problem := none }
  | none => bad

/-- What is said of a date with two readings. -/
def ambiguous (v : Text) (a b : Nat) (dayFirst monthFirst : Text) : Read :=
  { value := none
    problem :=
      some (text "“" ++ v ++ text "” could be " ++ decimal a ++ text " " ++ MONTH_NAMES.getD (b - 1) [] ++
      text " or " ++ decimal b ++ text " " ++ MONTH_NAMES.getD (a - 1) [] ++
        text ". Write it as " ++ dayFirst ++
      text " or " ++ monthFirst ++ text ".") }

/-- The date a text is, of its two readings. -/
def oneReading (bad : Read) (v : Text) (a b : Nat) : Option Text → Option Text → Read
  | some dayFirst, some monthFirst =>
    if dayFirst ≠ monthFirst then ambiguous v a b dayFirst monthFirst else readOr bad (some dayFirst)
  | dayFirst, monthFirst => readOr bad (dayFirst.or monthFirst)

/-- A date written as a day, a month and a year of which the first two could swap. -/
def readNumeric (bad : Read) (v : Text) (a b y : Nat) : Read :=
  oneReading bad v a b (isoDate y b a) (isoDate y a b)

def readStartDate (input : Text) : Read :=
  let v := withoutTime (trim input)
  if v = [] then { value := none, problem := none }
  else
    let bad := notADate input
    match yearFirst v with
    | some (y, m, d) => readOr bad (isoDate (decimalOf y) (decimalOf m) (decimalOf d))
    | none =>
      match yearLast v with
      | some (a, b, y) => readNumeric bad v (decimalOf a) (decimalOf b) (decimalOf y)
      | none =>
        match (dayMonthYear v).or (monthDayYear v) with
        | some (d, mon, y) =>
          if 0 < month mon then readOr bad (isoDate (yearOfDigits y) (month mon) (decimalOf d)) else bad
        | none => bad

variable {y m d : Nat}

theorem dateUTC_day (y m d : Int) : dateUTC y m d / MS_PER_DAY = dayNumber (fullYear y) m d := by
  unfold dateUTC MS_PER_DAY
  omega

/-- A year that `Date.UTC` moves doesn't come back. -/
theorem fullYear_of_comes_back (same : dayNumber (fullYear y) m d = dayNumber y m d) : 100 ≤ y := by
  by_contra early
  have full : fullYear y = 1900 + y := by
    unfold fullYear
    exact if_pos (by omega)
  have := monthStart_strictMono (show 12 * (y : Int) + (m - 1) < 12 * (1900 + y) + (m - 1) by omega)
  rw [full] at same
  unfold dayNumber at same
  omega

theorem fullYear_eq (late : 100 ≤ y) : fullYear y = y := by
  unfold fullYear
  exact if_neg (by omega)

theorem padded_length {width n : Nat} (short : (decimal n).length ≤ width) :
    (padded width n).length = width := by
  unfold padded
  rw [List.length_append, List.length_replicate]
  omega

theorem decimal_length_le {n k : Nat} (small : n < 10 ^ (k + 1)) : (decimal n).length ≤ k + 1 := by
  induction k generalizing n with
  | zero =>
    rw [decimal_small (by omega)]
    rfl
  | succ k ih =>
    by_cases one : n < 10
    · rw [decimal_small one, List.length_singleton]
      omega
    · rw [decimal_append (by omega), List.length_append]
      have := ih (n := n / 10) (by omega)
      rw [List.length_singleton]
      omega

/-- A date's text is ten characters. -/
theorem isoDay_length {y m d : Int} (real : RealDate y m d) (years : 0 ≤ y ∧ y ≤ 9999) :
    (isoDay (dayNumber y m d)).length = 10 := by
  obtain ⟨year, month, day⟩ := real.parts
  have lengths := Sync.monthLength_bounds (12 * y + (m - 1))
  have last := real.day
  have first := real.month
  have short : (decimal m.toNat).length ≤ 2 := decimal_length_le (k := 1) (by omega)
  have short' : (decimal d.toNat).length ≤ 2 := decimal_length_le (k := 1) (by omega)
  have short'' : (decimal y.toNat).length ≤ 4 := decimal_length_le (k := 3) (by omega)
  rw [isoDay, year, month, day, isoYear, if_pos years]
  simp only [List.length_append, padded_length short, padded_length short', padded_length short'']
  rfl

theorem toISOString_day (late : 100 ≤ y) (real : RealDate y m d) (small : y < 10000) :
    (toISOString (dateUTC y m d)).take 10 = isoDay (dayNumber y m d) := by
  have length := isoDay_length real (by omega)
  rw [toISOString, dateUTC_day, fullYear_eq late]
  simp only [List.append_assoc]
  rw [List.take_append_of_le_length length.ge, List.take_of_length_le length.le]

/-- An ISO date is made of a real date from the year 100 on. -/
theorem isoDate_eq_some_iff (small : y < 10000) {value : Text} :
    isoDate y m d = some value ↔ 100 ≤ y ∧ RealDate y m d ∧ value = isoDay (dayNumber y m d) := by
  unfold isoDate
  dsimp only
  rw [dateUTC_day]
  constructor
  · intro accepted
    split at accepted
    next back =>
      obtain ⟨year, month, day⟩ := back
      obtain ⟨real, same⟩ := realDate_of_day (dayNumber (fullYear y) m d)
      rw [year, month, day] at real same
      have late := fullYear_of_comes_back same.symm
      refine ⟨late, real, ?_⟩
      rw [← Option.some.inj accepted, toISOString_day late real small]
    next => exact absurd accepted (by simp)
  · rintro ⟨late, real, rfl⟩
    rw [fullYear_eq late, if_pos real.parts, toISOString_day late real small]

/-- So many digits are a number below that power of ten. -/
theorem decimalOf_lt {t : Text} (digits : ∀ c ∈ t, isDigit c = true) : decimalOf t < 10 ^ t.length := by
  induction t using List.reverseRecOn with
  | nil => decide
  | append_singleton t c ih =>
    have below := ih fun c member => digits c (List.mem_append_left _ member)
    have last := digits c (by simp)
    have value : (c - unit '0').toNat < 10 := by
      revert last
      simp only [isDigit, decide_eq_true_eq, UInt16.le_iff_toNat_le]
      rintro ⟨low, high⟩
      have zero : (unit '0').toNat = 48 := by decide
      have nine : (unit '9').toNat = 57 := by decide
      rw [UInt16.toNat_sub_of_le _ _ (by rwa [UInt16.le_iff_toNat_le])]
      omega
    rw [Naming.decimalOf_append, List.length_append, List.length_singleton, Nat.pow_succ]
    omega

theorem yearFirst_year {v year month day : Text} (found : yearFirst v = some (year, month, day)) :
    decimalOf year < 10000 := by
  simp only [yearFirst, Option.bind_eq_bind, Option.bind_eq_some_iff, Prod.exists] at found
  obtain ⟨year', _, ran, _, _, _, _, _, _, _, _, _, _, last⟩ := found
  obtain ⟨digits, length⟩ := run_spec ran
  split at last
  next =>
    simp only [Option.some.injEq, Prod.mk.injEq] at last
    have := decimalOf_lt digits
    rw [of_decide_eq_true length] at this
    rwa [← last.1]
  next => exact absurd last (by simp)

theorem yearLast_year {v a b year : Text} (found : yearLast v = some (a, b, year)) :
    decimalOf year < 10000 := by
  simp only [yearLast, Option.bind_eq_bind, Option.bind_eq_some_iff, Prod.exists] at found
  obtain ⟨_, _, _, _, _, _, _, _, _, _, year', _, ran, last⟩ := found
  obtain ⟨digits, length⟩ := run_spec ran
  split at last
  next =>
    simp only [Option.some.injEq, Prod.mk.injEq] at last
    have := decimalOf_lt digits
    rw [of_decide_eq_true length] at this
    rwa [← last.2.2]
  next => exact absurd last (by simp)

theorem yearOfDigits_lt {year : Text} (digits : ∀ c ∈ year, isDigit c = true)
    (length : year.length = 4 ∨ year.length = 2) :
    yearOfDigits year < 10000 := by
  have below := decimalOf_lt digits
  unfold yearOfDigits
  obtain four | two := length
  · rw [four] at below
    rwa [if_neg (by omega)]
  · rw [two] at below
    rw [if_pos two]
    omega

theorem dayMonthYear_year {v day mon year : Text} (found : dayMonthYear v = some (day, mon, year)) :
    yearOfDigits year < 10000 := by
  simp only [dayMonthYear, Option.bind_eq_bind, Option.bind_eq_some_iff, Prod.exists] at found
  obtain ⟨_, _, _, _, _, _, _, _, _, _, _, _, year', _, ran, last⟩ := found
  obtain ⟨digits, length⟩ := run_spec ran
  split at last
  next =>
    simp only [Option.some.injEq, Prod.mk.injEq] at last
    rw [← last.2.2]
    exact yearOfDigits_lt digits (of_decide_eq_true length)
  next => exact absurd last (by simp)

theorem monthDayYear_year {v day mon year : Text} (found : monthDayYear v = some (day, mon, year)) :
    yearOfDigits year < 10000 := by
  simp only [monthDayYear, Option.bind_eq_bind, Option.bind_eq_some_iff, Prod.exists] at found
  obtain ⟨_, _, _, _, _, _, _, _, _, _, _, _, year', _, ran, last⟩ := found
  obtain ⟨digits, length⟩ := run_spec ran
  split at last
  next =>
    simp only [Option.some.injEq, Prod.mk.injEq] at last
    rw [← last.2.2]
    exact yearOfDigits_lt digits (.inl (of_decide_eq_true length))
  next => exact absurd last (by simp)

/-- What was read, if anything, is a date of the calendar in a year of three digits or more. -/
def Dated (r : Read) : Prop :=
  ∀ value ∈ r.value, ∃ y m d : Nat, 100 ≤ y ∧ y < 10000 ∧ RealDate y m d ∧ value = isoDay (dayNumber y m d)

theorem readOr_dated {bad : Read} (none : bad.value = none) (small : y < 10000) :
    Dated (readOr bad (isoDate y m d)) := by
  intro value read
  cases accepted : isoDate y m d with
  | none => simp [readOr, accepted, none] at read
  | some date =>
    simp only [readOr, accepted, Option.mem_def, Option.some.injEq] at read
    obtain ⟨late, real, same⟩ := (isoDate_eq_some_iff small).mp accepted
    exact ⟨y, m, d, late, small, real, read ▸ same⟩

/-- Two numbers and a year are read as a real date or not at all. -/
theorem readNumeric_dated {bad : Read} {v : Text} {a b : Nat} (none : bad.value = none) (small : y < 10000) :
    Dated (readNumeric bad v a b y) := by
  have first : Dated (readOr bad (isoDate y b a)) := readOr_dated none small
  have second : Dated (readOr bad (isoDate y a b)) := readOr_dated none small
  rw [readNumeric]
  cases accepted : isoDate y b a with
  | none =>
    rw [oneReading, Option.none_or]
    · exact second
    · exact fun _ _ given => absurd given (by simp)
  | some dayFirst =>
    rw [accepted] at first
    cases isoDate y a b with
    | none => exact first
    | some monthFirst =>
      rw [oneReading]
      split
      next => exact fun value read => absurd read (by simp [ambiguous])
      next => exact first

/-- Whatever is accepted is a real date in ISO form. -/
theorem readStartDate_dated (input : Text) : Dated (readStartDate input) := by
  have bad : (notADate input).value = none := rfl
  unfold readStartDate
  dsimp only
  split
  next => exact fun value read => absurd read (by simp)
  next =>
    split
    next found => exact readOr_dated bad (yearFirst_year found)
    next =>
      split
      next found => exact readNumeric_dated bad (yearLast_year found)
      next =>
        split
        next day mon year found =>
          split
          next =>
            refine readOr_dated bad ?_
            obtain found | ⟨-, found⟩ := Option.or_eq_some_iff.mp found
            · exact dayMonthYear_year found
            · exact monthDayYear_year found
          next => exact fun value read => absurd read (by simp [notADate])
        next => exact fun value read => absurd read (by simp [notADate])

end OpenAduc.UserImport
