import OpenAduc.Dates.Iso
import OpenAduc.Dn.Codec
import OpenAduc.Naming.Accepted
import OpenAduc.Provider.Effects

namespace OpenAduc.Expiry
open Naming (Text text unit trim isSpace isDigit decimal decimalOf decimal_digits decimal_ne_nil
  decimalOf_decimal)
open Sync (MS_PER_DAY monthStart monthLength)
open Dates (dayNumber RealDate dateUTC toISOString)
open Provider (FILETIME_MAX FILETIME_TO_UNIX_EPOCH_DIFF_MS Directory Faults Guid Spelling)

/-- A date and time as `z.iso.datetime` with an offset accepts it: seconds and their fraction may be
left out. -/
structure IsoDatetime where
  year : Nat
  month : Nat
  day : Nat
  hour : Nat
  minute : Nat
  second : Nat
  /-- The digits after the point. -/
  fraction : List Nat
  /-- How far the time it is written in is ahead of UTC, in minutes. -/
  offset : Int
  year_lt : year < 10000
  real : RealDate year month day
  clock : hour < 24 ∧ minute < 60 ∧ second < 60
  digits : ∀ d ∈ fraction, d < 10
  offset_lt : offset.natAbs < 1440

/-- A fraction's milliseconds: its first three digits, the rest dropped. -/
def milliseconds : List Nat → Nat
  | [] => 0
  | [a] => 100 * a
  | [a, b] => 100 * a + 10 * b
  | a :: b :: c :: _ => 100 * a + 10 * b + c

/-- `Date.parse`. -/
def IsoDatetime.instant (v : IsoDatetime) : Int :=
  dayNumber v.year v.month v.day * MS_PER_DAY + ((v.hour * 60 + v.minute) * 60 + v.second) * 1000 +
    milliseconds v.fraction - v.offset * 60000

/-- What `accountExpiryRequestSchema` accepts: a date after the start of 1601, or never. -/
structure AccountExpiryRequest where
  expiresAt : Option IsoDatetime
  after1601 : ∀ v ∈ expiresAt, dateUTC 1601 1 1 < v.instant

/-- The date the routes make of it. -/
def AccountExpiryRequest.date (r : AccountExpiryRequest) : Option Int := r.expiresAt.map (·.instant)

def digitIn (radix : Nat) (c : UInt16) : Option Nat := (Dn.hexDigit c).filter (· < radix)

def numberIn (radix : Nat) (digits : Text) : Option Nat :=
  if digits = [] then none else digits.foldlM (fun n c => (digitIn radix c).map (radix * n + ·)) 0

/-- `BigInt` of a text, which throws on what is no whole number. -/
def bigInt (value : Text) : Option Int :=
  match trim value with
  | [] => some 0
  | c :: rest =>
    if c = unit '0' ∧ rest.head?.any (· ∈ text "xX") then (numberIn 16 rest.tail).map (↑·)
    else if c = unit '0' ∧ rest.head?.any (· ∈ text "oO") then (numberIn 8 rest.tail).map (↑·)
    else if c = unit '0' ∧ rest.head?.any (· ∈ text "bB") then (numberIn 2 rest.tail).map (↑·)
    else if c = unit '-' then (numberIn 10 rest).map fun n => -(n : Int)
    else if c = unit '+' then (numberIn 10 rest).map (↑·)
    else (numberIn 10 (c :: rest)).map (↑·)

/-- A FILETIME as LDAP gives it. 0 and the greatest are "never". -/
def filetimeToDate (value : Option Text) : Option Int :=
  match value with
  | none => none
  | some value =>
    if value = [] ∨ value = text "0" then none
    else
      match bigInt value with
      | none => none
      | some big => if big ≤ 0 ∨ FILETIME_MAX ≤ big then none else some (big / 10000 -
        FILETIME_TO_UNIX_EPOCH_DIFF_MS)

def bigIntText (n : Int) : Text := if n < 0 then unit '-' :: decimal n.natAbs else decimal n.natAbs

/-- A date as a FILETIME, for writing. -/
def dateToFiletime (date : Int) : Text := bigIntText (Provider.dateToFiletime date)

def FILETIME_NEVER : Text := bigIntText Provider.FILETIME_NEVER

/-- The value `setAccountExpiry` writes. -/
def expiryValue (expiresAt : Option Int) : Text :=
  match expiresAt with
  | some date => dateToFiletime date
  | none => FILETIME_NEVER

/-- The unchanged test of `expireAccountAt`: the date read is the one asked for, as text. -/
def asAsked (expiresAt accountExpiresAt : Option Int) : Bool :=
  accountExpiresAt.map toISOString = expiresAt.map toISOString

section
variable {n : Nat} {c : UInt16}

theorem digitIn_ten (digit : isDigit c = true) : digitIn 10 c = some (c - unit '0').toNat := by
  have range : 48 ≤ c.toNat ∧ c.toNat ≤ 57 := by
    simpa [isDigit, unit, UInt16.le_iff_toNat_le] using digit
  have value : (c - unit '0').toNat = c.toNat - 48 := by
    have : (unit '0').toNat ≤ c.toNat := range.1
    exact UInt16.toNat_sub_of_le _ _ (UInt16.le_iff_toNat_le.mpr this)
  rw [digitIn, Dn.hexDigit, if_pos digit, value]
  simp [Option.filter]
  omega

theorem numberIn_digits {digits : Text} (some_ : digits ≠ []) (all : ∀ c ∈ digits, isDigit c = true) :
    numberIn 10 digits = some (decimalOf digits) := by
  have from_ (n : Nat) : digits.foldlM (fun n c => (digitIn 10 c).map (10 * n + ·)) n =
      some (digits.foldl (fun n c => 10 * n + (c - unit '0').toNat) n) := by
    clear some_
    induction digits generalizing n with
    | nil => rfl
    | cons c digits ih =>
      have rest := ih (fun d member => all d (List.mem_cons_of_mem _ member))
      rw [List.foldlM_cons, digitIn_ten (all c List.mem_cons_self)]
      exact rest _
  rw [numberIn, if_neg some_, from_]
  rfl

/-- A number's decimal digits are read as the number. -/
theorem bigInt_decimal (n : Nat) : bigInt (decimal n) = some (n : Int) := by
  have all := decimal_digits n
  have bare : trim (decimal n) = decimal n := by
    refine Naming.trim_bare (Naming.bare_of_all fun c member => ?_)
    have range : 48 ≤ c.toNat ∧ c.toNat ≤ 57 := by
      simpa [isDigit, unit, UInt16.le_iff_toNat_le] using all c member
    simp [isSpace, UInt16.le_iff_toNat_le, ← UInt16.toNat_inj]
    omega
  obtain ⟨c, rest, shape⟩ := List.exists_cons_of_ne_nil (decimal_ne_nil n)
  have outside (d : UInt16) (other : isDigit d = false) : d ∉ decimal n := by
    intro member
    rw [all d member] at other
    cases other
  have first (d : UInt16) (other : isDigit d = false) : c ≠ d := by
    rintro rfl
    exact outside c other (by rw [shape]; exact List.mem_cons_self)
  have second (ds : Text) (other : ds.all (isDigit · = false) = true) : rest.head?.any (· ∈ ds) = false := by
    cases rest with
    | nil => rfl
    | cons d more =>
      have isOut : d ∉ ds := by
        intro member
        have notDigit := List.all_eq_true.mp other d member
        exact outside d (by simpa using notDigit) (by rw [shape]; simp)
      simpa using isOut
  have number := numberIn_digits (decimal_ne_nil n) all
  rw [shape] at bare number
  rw [bigInt, shape, bare]
  simp only [second (text "xX") (by decide), second (text "oO") (by decide), second (text "bB") (by decide),
    if_neg (first (unit '-') (by decide)), if_neg (first (unit '+') (by decide)), number]
  rw [← shape, decimalOf_decimal]
  simp

/-- A FILETIME's digits are read as the number is. -/
theorem filetimeToDate_bigIntText (n : Nat) :
    filetimeToDate (some (bigIntText n)) = Provider.filetimeToDate (some (n : Int)) := by
  have digits : bigIntText n = decimal n := by simp [bigIntText]
  rw [digits, filetimeToDate, bigInt_decimal, Provider.filetimeToDate]
  by_cases zero : decimal n = text "0"
  · have none : n = 0 := by
      rw [← decimalOf_decimal n, zero]
      decide
    simp [none]
  · simp [decimal_ne_nil, zero]

end

/-- Digits of a fraction, cut to three, are under a second. -/
theorem milliseconds_lt {digits : List Nat} (all : ∀ d ∈ digits, d < 10) : milliseconds digits < 1000 := by
  match digits with
  | [] => decide
  | [a] =>
    have := all a (by simp)
    simp only [milliseconds]
    omega
  | [a, b] =>
    have := all a (by simp)
    have := all b (by simp)
    simp only [milliseconds]
    omega
  | a :: b :: c :: rest =>
    have := all a (by simp)
    have := all b (by simp)
    have := all c (by simp)
    simp only [milliseconds]
    omega

/-- No year of four digits ends more than a day after the start of year 10000. -/
theorem instant_lt (v : IsoDatetime) : v.instant < (monthStart (12 * 10000) + 1) * MS_PER_DAY := by
  obtain ⟨month, day⟩ := v.real
  have before : dayNumber v.year v.month v.day < monthStart (12 * 10000) := by
    have inMonth : dayNumber v.year v.month v.day < monthStart (12 * v.year + (v.month - 1) + 1) := by
      unfold monthLength at day
      unfold dayNumber
      omega
    have year := v.year_lt
    exact inMonth.trans_le (Sync.monthStart_strictMono.monotone (by omega))
  have clock := v.clock
  have ms := milliseconds_lt v.digits
  have offset := v.offset_lt
  unfold IsoDatetime.instant MS_PER_DAY
  omega

theorem epoch_1601 : dateUTC 1601 1 1 = -FILETIME_TO_UNIX_EPOCH_DIFF_MS := by decide

theorem end_9999 : monthStart (12 * 10000) = 2932897 := by decide

/-- An accepted date is strictly between the two values AD reads as never. -/
theorem filetime_bounds (r : AccountExpiryRequest) {v : IsoDatetime} (asked : r.expiresAt = some v) :
    0 < Provider.dateToFiletime v.instant ∧ Provider.dateToFiletime v.instant < FILETIME_MAX := by
  have after := r.after1601 v asked
  have before := instant_lt v
  rw [epoch_1601] at after
  rw [end_9999] at before
  unfold Provider.dateToFiletime FILETIME_MAX MS_PER_DAY FILETIME_TO_UNIX_EPOCH_DIFF_MS at *
  omega

/-- What is written to AD for a date is read back as the date. -/
theorem filetimeToDate_expiryValue (r : AccountExpiryRequest) :
    filetimeToDate (some (expiryValue r.date)) = r.date := by
  cases asked : r.expiresAt with
  | none =>
    rw [AccountExpiryRequest.date, asked]
    decide
  | some v =>
    obtain ⟨positive, held⟩ := filetime_bounds r asked
    have natural : Provider.dateToFiletime v.instant =
      ((Provider.dateToFiletime v.instant).toNat : Int) := by omega
    have after : 0 < v.instant + FILETIME_TO_UNIX_EPOCH_DIFF_MS := by
      unfold Provider.dateToFiletime at positive
      omega
    rw [AccountExpiryRequest.date, asked]
    change filetimeToDate (some (bigIntText (Provider.dateToFiletime v.instant))) = some v.instant
    rw [natural, filetimeToDate_bigIntText, ← natural]
    exact Provider.filetimeToDate_dateToFiletime after held

/-- An account's expiry as its attribute's text is read. -/
def accountExpiresAt (e : Provider.Entry) : Option Int :=
  filetimeToDate (e.attributes.accountExpires.map bigIntText)

theorem bigIntText_expiryValue (expiresAt : Option Int) :
    bigIntText (Provider.expiryValue expiresAt) = expiryValue expiresAt := by
  cases expiresAt <;> rfl

/-- Once the write is in place the test finds the account as asked. -/
theorem asAsked_of_written (r : AccountExpiryRequest) {e e' : Provider.Entry}
    (written : Provider.ExpiryAsked r.date e e') :
    asAsked r.date (accountExpiresAt e') = true := by
  have value : e'.attributes.accountExpires = some (Provider.expiryValue r.date) := by
    rw [written.only]
    rfl
  have read : accountExpiresAt e' = r.date := by
    rw [accountExpiresAt, value, Option.map_some, bigIntText_expiryValue, filetimeToDate_expiryValue]
  simp [asAsked, read]

/-- An accepted expiry survives AD's FILETIME: its number lies strictly inside, is read back as the
same instant, and the account it is written to is found as asked; never is read as no expiry, and no
date as never. -/
theorem expiry_survives (r : AccountExpiryRequest) :
    (∀ v, r.expiresAt = some v →
      bigInt (dateToFiletime v.instant) = some (Provider.dateToFiletime v.instant) ∧
      0 < Provider.dateToFiletime v.instant ∧ Provider.dateToFiletime v.instant < 2 ^ 63 - 1 ∧
      filetimeToDate (some (dateToFiletime v.instant)) = some v.instant) ∧
    (∀ (ad : Spelling) (faults : Faults) (userId : Guid) (d : Directory),
      let ran := Provider.setAccountExpiry ad faults userId r.date d
      (ran.2 = d ∨ ∃ e, ran.2.find .user userId = some e ∧ asAsked r.date (accountExpiresAt e) = true) ∧
      (ran.1.ok = true → ∃ e, ran.2.find .user userId = some e ∧
        asAsked r.date (accountExpiresAt e) = true)) ∧
    filetimeToDate (some (text "0")) = none ∧ filetimeToDate (some FILETIME_NEVER) = none := by
  refine ⟨?_, ?_, by decide, by decide⟩
  · intro v asked
    obtain ⟨positive, held⟩ := filetime_bounds r asked
    have natural : Provider.dateToFiletime v.instant =
      ((Provider.dateToFiletime v.instant).toNat : Int) := by omega
    refine ⟨?_, positive, held, ?_⟩
    · have digits : dateToFiletime v.instant = decimal (Provider.dateToFiletime v.instant).toNat := by
        rw [dateToFiletime, bigIntText, if_neg (by omega)]
        congr 1
        omega
      rw [digits, bigInt_decimal, ← natural]
    · have back := filetimeToDate_expiryValue r
      rwa [AccountExpiryRequest.date, asked] at back
  · intro ad faults userId d
    have effect := Provider.setAccountExpiry_effect ad faults userId r.date d
    refine ⟨?_, fun ok => ?_⟩
    · rcases effect.only with same | ⟨e, e', _, found, written⟩
      · exact Or.inl same
      · exact Or.inr ⟨e', found, asAsked_of_written r written⟩
    · obtain ⟨e, e', _, found, written⟩ := effect.done ok
      exact ⟨e', found, asAsked_of_written r written⟩

/-- The end of a school year, to the microsecond, in a zone an hour ahead. -/
def summer : AccountExpiryRequest where
  expiresAt := some {
    year := 2027, month := 7, day := 31, hour := 23, minute := 59, second := 59, fraction :=
      [9, 9, 9, 5], offset := 60
    year_lt := by decide
    real := by decide
    clock := by decide
    digits := by decide
    offset_lt := by decide }
  after1601 v asked := by
    cases asked
    decide

theorem expiry_survives_summer :
    filetimeToDate (some (dateToFiletime 1817074799999)) = some 1817074799999 ∧
    0 < Provider.dateToFiletime 1817074799999 ∧ filetimeToDate (some FILETIME_NEVER) = none :=
  have survives := (expiry_survives summer).1 _ rfl
  ⟨survives.2.2.2, survives.2.1, (expiry_survives summer).2.2.2⟩

end OpenAduc.Expiry
