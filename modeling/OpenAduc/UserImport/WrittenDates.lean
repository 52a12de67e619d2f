import OpenAduc.UserImport.StartDates

namespace OpenAduc.UserImport
open Naming (Text text unit trim isSpace isDigit isLower isUpper lowerUnit decimal decimalOf digit
  decimal_small
  decimal_append decimal_digits decimal_ne_nil decimalOf_decimal isDigit_iff isLower_iff isUpper_iff)
open Dates (dayNumber RealDate padded isoDay)
open Scan (run one skip Stops stops_nil stops_cons stops_append stops_of_ne_nil run_append run_unfit
  one_cons one_stops
  skip_cons skip_stops)

section
variable {c : UInt16}

theorem isAscii_code (letter : isAscii c = true) : 65 ≤ c.toNat ∧ c.toNat ≤ 90 ∨ 97 ≤ c.toNat ∧
    c.toNat ≤ 122 := by
  rcases Bool.or_eq_true_iff.mp letter with lower | upper
  · exact .inr (isLower_iff.mp lower)
  · exact .inl (isUpper_iff.mp upper)

theorem isMark_code (mark : isMark c = true) : 45 ≤ c.toNat ∧ c.toNat ≤ 47 := by
  have marks := of_decide_eq_true mark
  simp only [unit, ← UInt16.toNat_inj] at marks
  have hyphen : (UInt16.ofNat '-'.toNat).toNat = 45 := rfl
  have slash : (UInt16.ofNat '/'.toNat).toNat = 47 := rfl
  have dot : (UInt16.ofNat '.'.toNat).toNat = 46 := rfl
  omega

theorem isSpace_code (space : isSpace c = true) : 9 ≤ c.toNat ∧ c.toNat ≤ 13 ∨ c.toNat = 32 ∨
    160 ≤ c.toNat := by
  simp only [isSpace, decide_eq_true_eq, UInt16.le_iff_toNat_le] at space
  have nine : (9 : UInt16).toNat = 9 := rfl
  have thirteen : (13 : UInt16).toNat = 13 := rfl
  have high : (0x2000 : UInt16).toNat = 0x2000 := rfl
  rcases space with low | above | member
  · omega
  · omega
  · have codes : ([0x20, 0xa0, 0x1680, 0x2028, 0x2029, 0x202f, 0x205f, 0x3000, 0xfeff] : List UInt16).all
        (fun c => c.toNat = 32 ∨ 160 ≤ c.toNat) = true := by decide
    exact .inr (of_decide_eq_true (List.all_eq_true.mp codes c member))

theorem isGap_code (gap : isGap c = true) :
    9 ≤ c.toNat ∧ c.toNat ≤ 13 ∨ c.toNat = 32 ∨ 160 ≤ c.toNat ∨ c.toNat = 45 := by
  rcases Bool.or_eq_true_iff.mp gap with space | hyphen
  · have := isSpace_code space
    omega
  · rw [of_decide_eq_true hyphen]
    exact .inr (.inr (.inr rfl))

theorem not_digit_of_mark (mark : isMark c = true) : isDigit c = false :=
  Bool.eq_false_iff.mpr fun digit => by
    have := isMark_code mark
    have := isDigit_iff.mp digit
    omega

theorem not_digit_of_gap (gap : isGap c = true) : isDigit c = false :=
  Bool.eq_false_iff.mpr fun digit => by
    have := isGap_code gap
    have := isDigit_iff.mp digit
    omega

theorem not_digit_of_letter (letter : isAscii c = true) : isDigit c = false :=
  Bool.eq_false_iff.mpr fun digit => by
    have := isAscii_code letter
    have := isDigit_iff.mp digit
    omega

theorem not_gap_of_digit (digit : isDigit c = true) : isGap c = false :=
  Bool.eq_false_iff.mpr fun gap => by
    have := isGap_code gap
    have := isDigit_iff.mp digit
    omega

theorem not_gap_of_letter (letter : isAscii c = true) : isGap c = false :=
  Bool.eq_false_iff.mpr fun gap => by
    have := isGap_code gap
    have := isAscii_code letter
    omega

theorem not_letter_of_gap (gap : isGap c = true) : isAscii c = false :=
  Bool.eq_false_iff.mpr fun letter => by
    have := isGap_code gap
    have := isAscii_code letter
    omega

theorem gap_of_space (space : isSpace c = true) : isGap c = true := by
  rw [isGap, space, Bool.true_or]

theorem not_space_of_digit (digit : isDigit c = true) : isSpace c = false :=
  Bool.eq_false_iff.mpr fun space => by
    have := isSpace_code space
    have := isDigit_iff.mp digit
    omega

theorem not_space_of_letter (letter : isAscii c = true) : isSpace c = false :=
  Bool.eq_false_iff.mpr fun space => by
    have := isSpace_code space
    have := isAscii_code letter
    omega

end

/-- So many digits. -/
structure Digits (fits : Nat → Bool) (t : Text) : Prop where
  all : ∀ c ∈ t, isDigit c = true
  length : fits t.length = true

/-- A time of day, as Excel's CSV adds one. -/
inductive TimeOfDay : Text → Prop
  | clock {c : UInt16} {hour minute seconds fraction : Text} :
      c = unit ' ' ∨ c = unit 'T' → Digits oneOrTwo hour → Digits (· = 2) minute →
      seconds = [] ∨ (∃ s, seconds = unit ':' :: s ∧ Digits (· = 2) s) →
      fraction = [] ∨ (∃ s, fraction = unit '.' :: s ∧ Digits (0 < ·) s) →
      TimeOfDay (c :: (hour ++ unit ':' :: (minute ++ (seconds ++ fraction))))

section
variable {fits : Nat → Bool} {t rest : Text} {c : UInt16}

theorem Digits.read (digits : Digits fits t) (rest : Text) (after : Stops isDigit rest) :
    run isDigit fits (t ++ rest) = some (t, rest) :=
  run_append digits.all after digits.length

theorem Digits.read_all (digits : Digits fits t) : run isDigit fits t = some (t, []) := by
  have read := digits.read [] stops_nil
  rwa [List.append_nil] at read

theorem Digits.ne_nil (digits : Digits fits t) (none : fits 0 = false) : t ≠ [] := by
  rintro rfl
  have length := digits.length
  rw [List.length_nil, none] at length
  exact absurd length (by simp)

theorem skipSeconds_append {seconds : Text}
    (written : seconds = [] ∨ ∃ s, seconds = unit ':' :: s ∧ Digits (· = 2) s)
    (after : Stops (· = unit ':') rest) (after' : Stops isDigit rest) :
    skipSeconds (seconds ++ rest) = some rest := by
  obtain rfl | ⟨s, rfl, digits⟩ := written
  · rw [List.nil_append, skipSeconds, one_stops after]
  · rw [List.cons_append, skipSeconds, one_cons rfl]
    simp only [digits.read _ after', Option.map_some]

theorem skipFraction_all {fraction : Text}
    (written : fraction = [] ∨ ∃ s, fraction = unit '.' :: s ∧ Digits (0 < ·) s) :
    skipFraction fraction = some [] := by
  obtain rfl | ⟨s, rfl, digits⟩ := written
  · rfl
  · rw [skipFraction, one_cons rfl]
    simp only [digits.read_all, Option.map_some]

/-- A time of day is found as one. -/
theorem timeIn_time (time : TimeOfDay t) : timeIn t = some () := by
  cases time with
  | @clock c hour minute seconds fraction start hours minutes seconds' fraction' =>
    have dot : Stops (· = unit ':') fraction ∧ Stops isDigit fraction := by
      obtain rfl | ⟨s, rfl, -⟩ := fraction'
      · exact ⟨stops_nil, stops_nil⟩
      · exact ⟨stops_cons rfl, stops_cons rfl⟩
    have rest : Stops isDigit (seconds ++ fraction) := by
      obtain rfl | ⟨s, rfl, -⟩ := seconds'
      · exact dot.2
      · exact stops_cons rfl
    have first : one (fun c => decide (c = unit ' ' ∨ c = unit 'T'))
      (c :: (hour ++ unit ':' :: (minute ++ (seconds ++ fraction)))) =
        some (hour ++ unit ':' :: (minute ++ (seconds ++ fraction))) := one_cons (decide_eq_true start)
    have colon : one (fun c => decide (c = unit ':')) (unit ':' :: (minute ++ (seconds ++ fraction))) =
        some (minute ++ (seconds ++ fraction)) := one_cons rfl
    have hourly := hours.read (unit ':' :: (minute ++ (seconds ++ fraction))) (stops_cons (by decide))
    simp only [timeIn, Option.bind_eq_bind, first, Option.bind_some, hourly, colon, minutes.read _ rest,
      skipSeconds_append seconds' dot.1 dot.2, skipFraction_all fraction']
    rfl

/-- What is after a run of a class: inside the first text, or where the second one stops. -/
theorem head_dropWhile_append {p : UInt16 → Bool} (after : Stops p rest) :
    ∀ c ∈ ((t ++ rest).dropWhile p).head?, c ∈ t ∨ c ∈ rest.head? := by
  induction t with
  | nil =>
    cases rest with
    | nil => simp
    | cons c rest =>
      have other : p c = false := after c rfl
      simp [other]
  | cons x t ih =>
    intro c first
    by_cases of : p x = true
    · rw [List.cons_append, List.dropWhile_cons_of_pos of] at first
      exact (ih c first).imp_left (List.mem_cons_of_mem x)
    · rw [List.cons_append, List.dropWhile_cons_of_neg of] at first
      obtain rfl := Option.some.inj first
      exact .inl List.mem_cons_self

/-- No time starts inside a text without a colon. -/
theorem timeIn_none (plain : unit ':' ∉ t) (after : Stops (· = unit ':') rest) (after' : Stops isDigit rest) :
    timeIn (c :: (t ++ rest)) = none := by
  have colon : Stops (· = unit ':') ((t ++ rest).dropWhile isDigit) := by
    intro c first
    obtain inside | next := head_dropWhile_append after' c first
    · exact decide_eq_false fun same => plain (same ▸ inside)
    · exact after c next
  by_cases start : c = unit ' ' ∨ c = unit 'T'
  · have first : one (fun c => decide (c = unit ' ' ∨ c = unit 'T')) (c :: (t ++ rest)) = some (t ++ rest) :=
      one_cons (decide_eq_true start)
    simp only [timeIn, Option.bind_eq_bind, first, Option.bind_some, run]
    split
    next => simp only [Option.bind_some, one_stops colon, Option.bind_none]
    next => rfl
  · have first : one (fun c => decide (c = unit ' ' ∨ c = unit 'T')) (c :: (t ++ rest)) = none :=
      one_stops (stops_cons (decide_eq_false start))
    simp only [timeIn, Option.bind_eq_bind, first, Option.bind_none]

/-- A time of day behind a date is dropped. -/
theorem withoutTime_append (plain : unit ':' ∉ t) (after : Stops (· = unit ':') rest)
    (after' : Stops isDigit rest)
    (time : rest = [] ∨ timeIn rest = some ()) : withoutTime (t ++ rest) = t := by
  induction t with
  | nil =>
    cases rest with
    | nil => rfl
    | cons c rest =>
      have found := time.resolve_left (by simp)
      rw [List.nil_append, withoutTime, found]
      rfl
  | cons c t ih =>
    have inner : unit ':' ∉ t := fun member => plain (List.mem_cons_of_mem c member)
    rw [List.cons_append, withoutTime, timeIn_none inner after after', ih inner]
    rfl

theorem TimeOfDay.last (time : TimeOfDay t) : ∀ c ∈ (rest ++ t).getLast?, isSpace c = false := by
  have ends : ∃ front digits, t = front ++ digits ∧ digits ≠ [] ∧ ∀ c ∈ digits, isDigit c = true := by
    cases time with
    | @clock c hour minute seconds fraction start hours minutes seconds' fraction' =>
      obtain rfl | ⟨s, rfl, digits⟩ := fraction'
      · obtain rfl | ⟨s, rfl, digits⟩ := seconds'
        · exact ⟨c :: (hour ++ [unit ':']), minute, by simp, minutes.ne_nil rfl, minutes.all⟩
        · exact ⟨c :: (hour ++ unit ':' :: (minute ++ [unit ':'])), s, by simp, digits.ne_nil rfl, digits.all⟩
      · exact ⟨c :: (hour ++ unit ':' :: (minute ++ (seconds ++ [unit '.']))),
          s, by simp, digits.ne_nil rfl, digits.all⟩
  obtain ⟨front, digits, rfl, some_left, all⟩ := ends
  intro c last
  rw [← List.append_assoc, List.getLast?_append_of_ne_nil _ some_left] at last
  exact not_space_of_digit (all c (List.mem_of_getLast? last))

/-- A text typed with white space around it and perhaps a time of day after it. -/
def Typed (input v : Text) : Prop :=
  ∃ before time after : Text, (time = [] ∨ TimeOfDay time) ∧ (∀ c ∈ before, isSpace c = true) ∧
    (∀ c ∈ after, isSpace c = true) ∧ input = before ++ ((v ++ time) ++ after)

/-- A text that is no time and has no white space at its ends. -/
structure Plain (v : Text) : Prop where
  some_left : v ≠ []
  bare : Runs.Bare isSpace v
  colon : unit ':' ∉ v

/-- What is typed around a date is dropped. -/
theorem typed_read {input v : Text} (typed : Typed input v) (plain : Plain v) :
    withoutTime (trim input) = v := by
  obtain ⟨before, time, after, time', first, last, rfl⟩ := typed
  have bare : Runs.Bare isSpace (v ++ time) := by
    constructor
    · intro c head
      rw [List.head?_append_of_ne_nil _ plain.some_left] at head
      exact plain.bare.head c head
    · obtain rfl | time' := time'
      · rw [List.append_nil]
        exact plain.bare.last
      · exact time'.last
  have stops : Stops (· = unit ':') time ∧ Stops isDigit time := by
    obtain rfl | time' := time'
    · exact ⟨stops_nil, stops_nil⟩
    · cases time' with
      | clock start => rcases start with rfl | rfl <;> exact ⟨stops_cons (by decide), stops_cons (by decide)⟩
  rw [trim, Runs.strip_pad bare first last,
    withoutTime_append plain.colon stops.1 stops.2 (time'.imp_right timeIn_time)]

end

/-- A part of a date as one is written. -/
def isPart (c : UInt16) : Bool := isDigit c || isMark c || isAscii c || isGap c || c = unit ','

theorem part_ne_colon {c : UInt16} (part : isPart c = true) : c ≠ unit ':' := by
  rintro rfl
  revert part
  decide

theorem plain_of_parts {front middle digits : Text} (some_left : front ≠ [])
    (first : ∀ c ∈ front, isSpace c = false)
    (some_left' : digits ≠ []) (last : ∀ c ∈ digits, isDigit c = true)
    (parts : ∀ c ∈ front ++ (middle ++ digits), isPart c = true) : Plain (front ++ (middle ++ digits)) where
  some_left := by simp [some_left]
  bare := by
    constructor
    · intro c head
      rw [List.head?_append_of_ne_nil _ some_left] at head
      exact first c (List.mem_of_mem_head? head)
    · intro c end'
      rw [← List.append_assoc, List.getLast?_append_of_ne_nil _ some_left'] at end'
      exact not_space_of_digit (last c (List.mem_of_getLast? end'))
  colon := fun member => part_ne_colon (parts _ member) rfl

/-- Three numbers with a mark between each two. -/
def marked (a : Text) (s : UInt16) (b : Text) (s' : UInt16) (c : Text) : Text := a ++ s :: (b ++ s' :: c)

section
variable {a b c : Text} {s s' : UInt16} {fits fits' fits'' : Nat → Bool}

/-- Numbers and marks have no colon. -/
theorem plain_marked (first : Digits fits a) (second : Digits fits' b) (third : Digits fits'' c)
    (none : fits 0 = false)
    (none' : fits'' 0 = false) (mark : isMark s = true) (mark' : isMark s' = true) :
    Plain (marked a s b s' c) := by
  have split : marked a s b s' c = a ++ ((s :: (b ++ [s'])) ++ c) := by simp [marked]
  rw [split]
  refine plain_of_parts (first.ne_nil none)
    (fun c member => not_space_of_digit (first.all c member)) (third.ne_nil none')
    third.all fun c member => ?_
  simp only [List.mem_append, List.mem_cons, List.not_mem_nil, or_false] at member
  simp only [isPart, Bool.or_eq_true]
  rcases member with member | (rfl | member | rfl) | member
  · exact .inl (.inl (.inl (.inl (first.all c member))))
  · exact .inl (.inl (.inl (.inr mark)))
  · exact .inl (.inl (.inl (.inl (second.all c member))))
  · exact .inl (.inl (.inl (.inr mark')))
  · exact .inl (.inl (.inl (.inl (third.all c member))))

theorem yearFirst_marked (first : Digits (· = 4) a) (second : Digits oneOrTwo b) (third : Digits oneOrTwo c)
    (mark : isMark s = true) (mark' : isMark s' = true) : yearFirst (marked a s b s' c) = some (a, b, c) := by
  have read := first.read (s :: (b ++ s' :: c)) (stops_cons (not_digit_of_mark mark))
  have read' := second.read (s' :: c) (stops_cons (not_digit_of_mark mark'))
  simp only [yearFirst, marked, Option.bind_eq_bind, read, Option.bind_some, one_cons mark, read',
    one_cons mark',
    third.read_all, if_true]

theorem yearLast_marked (first : Digits oneOrTwo a) (second : Digits oneOrTwo b) (third : Digits (· = 4) c)
    (mark : isMark s = true) (mark' : isMark s' = true) : yearLast (marked a s b s' c) = some (a, b, c) := by
  have read := first.read (s :: (b ++ s' :: c)) (stops_cons (not_digit_of_mark mark))
  have read' := second.read (s' :: c) (stops_cons (not_digit_of_mark mark'))
  simp only [yearLast, marked, Option.bind_eq_bind, read, Option.bind_some, one_cons mark, read',
    one_cons mark',
    third.read_all, if_true]

/-- Only a text that starts with a year of four digits is read with its year first. -/
theorem yearFirst_none {rest : Text} (all : ∀ c ∈ a, isDigit c = true) (length : a.length ≠ 4)
    (after : Stops isDigit rest) :
    yearFirst (a ++ rest) = none := by
  have unfit : run isDigit (· = 4) (a ++ rest) = none := run_unfit all after (decide_eq_false length)
  simp only [yearFirst, Option.bind_eq_bind, unfit, Option.bind_none]

theorem oneOrTwo_ne_four (digits : Digits oneOrTwo a) : a.length ≠ 4 := by
  have := of_decide_eq_true digits.length
  omega

end

/-- A day, a month and a year of four digits, of which the first two could swap. -/
structure NumericDate where
  a : Text
  b : Text
  y : Text
  s : UInt16
  s' : UInt16
  a_digits : Digits oneOrTwo a
  b_digits : Digits oneOrTwo b
  y_digits : Digits (· = 4) y
  mark : isMark s = true
  mark' : isMark s' = true

namespace NumericDate
variable (n : NumericDate)

def text : Text := marked n.a n.s n.b n.s' n.y

def first : Nat := decimalOf n.a

def second : Nat := decimalOf n.b

def year : Nat := decimalOf n.y

theorem year_lt : n.year < 10000 := by
  have below := decimalOf_lt n.y_digits.all
  rwa [of_decide_eq_true n.y_digits.length] at below

theorem read {input : Text} (typed : Typed input n.text) :
    readStartDate input = readNumeric (notADate input) n.text n.first n.second n.year := by
  have plain : Plain n.text := plain_marked n.a_digits n.b_digits n.y_digits rfl rfl n.mark n.mark'
  have early : yearFirst n.text = none :=
    yearFirst_none n.a_digits.all (oneOrTwo_ne_four n.a_digits) (stops_cons (not_digit_of_mark n.mark))
  have late : yearLast n.text = some (n.a, n.b, n.y) :=
    yearLast_marked n.a_digits n.b_digits n.y_digits n.mark n.mark'
  unfold readStartDate
  simp only [typed_read typed plain, if_neg plain.some_left, early, late]
  rfl

/-- The two dates it could be. -/
def DayFirst : Prop := RealDate n.year n.second n.first

def MonthFirst : Prop := RealDate n.year n.first n.second

/-- Both readings are dates, and not the same one. -/
def Ambiguous : Prop :=
  n.DayFirst ∧ n.MonthFirst ∧ dayNumber n.year n.second n.first ≠ dayNumber n.year n.first n.second

end NumericDate

theorem decimalOf_zeros (k : Nat) (t : Text) : decimalOf (List.replicate k (unit '0') ++ t) =
    decimalOf t := by
  induction k with
  | zero => rfl
  | succ k ih =>
    rw [List.replicate_succ, List.cons_append, ← ih]
    rfl

theorem decimalOf_padded (width n : Nat) : decimalOf (padded width n) = n := by
  rw [padded, decimalOf_zeros, decimalOf_decimal]

/-- Two dates written alike are one. -/
theorem isoDay_inj {y m d m' d' : Nat} (real : RealDate y m d) (real' : RealDate y m' d')
    (same : isoDay (dayNumber y m d) = isoDay (dayNumber y m' d')) : m = m' ∧ d = d' := by
  obtain ⟨year, month, day⟩ := real.parts
  obtain ⟨year', month', day'⟩ := real'.parts
  have short : (padded 2 m).length = (padded 2 m').length := by
    have small := real.month
    have small' := real'.month
    rw [padded_length (decimal_length_le (k := 1) (by omega)),
      padded_length (decimal_length_le (k := 1) (by omega))]
  simp only [isoDay, year, month, day, year', month', day', List.append_assoc, Int.toNat_natCast] at same
  have rest := List.append_cancel_left (List.append_cancel_left same)
  obtain ⟨months, days⟩ := List.append_inj rest short
  have days' := List.append_cancel_left days
  have month_eq := congrArg decimalOf months
  have day_eq := congrArg decimalOf days'
  rw [decimalOf_padded, decimalOf_padded] at month_eq day_eq
  exact ⟨month_eq, day_eq⟩

section
variable {y a b : Nat} {bad : Read} {v : Text}

theorem isoDate_real (late : 100 ≤ y) (small : y < 10000) (real : RealDate y a b) :
    isoDate y a b = some (isoDay (dayNumber y a b)) := (isoDate_eq_some_iff small).mpr ⟨late, real, rfl⟩

theorem isoDate_not_real (small : y < 10000) (unreal : ¬RealDate y a b) : isoDate y a b = none := by
  cases accepted : isoDate y a b with
  | none => rfl
  | some date => exact absurd ((isoDate_eq_some_iff small).mp accepted).2.1 unreal

theorem readNumeric_ambiguous (late : 100 ≤ y) (small : y < 10000) (real : RealDate y b a)
    (real' : RealDate y a b)
    (apart : dayNumber y b a ≠ dayNumber y a b) :
    readNumeric bad v a b y = ambiguous v a b (isoDay (dayNumber y b a)) (isoDay (dayNumber y a b)) := by
  have texts : isoDay (dayNumber y b a) ≠ isoDay (dayNumber y a b) := by
    intro same
    obtain ⟨months, days⟩ := isoDay_inj real real' same
    exact apart (by rw [months])
  rw [readNumeric, isoDate_real late small real, isoDate_real late small real']
  exact if_pos texts

theorem readNumeric_same (late : 100 ≤ y) (small : y < 10000) (real : RealDate y b a) (real' : RealDate y a b)
    (same : dayNumber y b a = dayNumber y a b) :
    readNumeric bad v a b y = { value := some (isoDay (dayNumber y b a)), problem := none } := by
  rw [readNumeric, isoDate_real late small real, isoDate_real late small real', same]
  exact if_neg (not_not_intro rfl)

theorem readNumeric_dayFirst (late : 100 ≤ y) (small : y < 10000) (real : RealDate y b a)
    (unreal : ¬RealDate y a b) :
    readNumeric bad v a b y = { value := some (isoDay (dayNumber y b a)), problem := none } := by
  rw [readNumeric, isoDate_real late small real, isoDate_not_real small unreal]
  rfl

theorem readNumeric_monthFirst (late : 100 ≤ y) (small : y < 10000) (unreal : ¬RealDate y b a)
    (real : RealDate y a b) :
    readNumeric bad v a b y = { value := some (isoDay (dayNumber y a b)), problem := none } := by
  rw [readNumeric, isoDate_not_real small unreal, isoDate_real late small real]
  rfl

theorem readNumeric_neither (small : y < 10000) (unreal : ¬RealDate y b a) (unreal' : ¬RealDate y a b) :
    readNumeric bad v a b y = bad := by
  rw [readNumeric, isoDate_not_real small unreal, isoDate_not_real small unreal']
  rfl

end

/-- A number as the day or month of a date. -/
def Numeral (n : Nat) (t : Text) : Prop := t = decimal n ∨ t = padded 2 n

/-- White space and hyphens, one at least. -/
structure Between (p : UInt16 → Bool) (t : Text) : Prop where
  some_left : t ≠ []
  all : ∀ c ∈ t, p c = true

/-- A name of a month: its first three letters, in either case, and any more. -/
structure MonthName (m : Nat) (name : Text) : Prop where
  letters : ∀ c ∈ name, isAscii c = true
  long : 3 ≤ name.length
  known : 0 < m ∧ MONTHS[m - 1]? = some ((name.take 3).map lowerUnit)

/-- A date written in one of the formats. -/
inductive Written (y m d : Nat) : Text → Prop
  | yearFirst {month day : Text} {s s' : UInt16} : Numeral m month → Numeral d day →
      isMark s = true → isMark s' = true →
      Written y m d (marked (decimal y) s month s' day)
  | dayFirst {month day : Text} {s s' : UInt16} : Numeral m month → Numeral d day →
    isMark s = true → isMark s' = true →
      Written y m d (marked day s month s' (decimal y))
  | monthFirst {month day : Text} {s s' : UInt16} : Numeral m month → Numeral d day →
    isMark s = true → isMark s' = true →
      Written y m d (marked month s day s' (decimal y))
  | dayMonth {day ordinal gap name dot comma gap' year : Text} : Numeral d day → ordinal = [] ∨
    ordinal ∈ ORDINALS →
      Between isGap gap → MonthName m name → dot = [] ∨ dot = [unit '.'] → comma = [] ∨ comma = [unit ','] →
      Between isGap gap' → year = decimal y ∨ (2000 ≤ y ∧ y < 2100 ∧ year = padded 2 (y - 2000)) →
      Written y m d (day ++ (ordinal ++ (gap ++ (name ++ (dot ++ (comma ++ (gap' ++ year)))))))
  | monthDay {name dot gap day ordinal comma gap' : Text} : MonthName m name → dot = [] ∨ dot = [unit '.'] →
      Between isSpace gap → Numeral d day → ordinal = [] ∨ ordinal ∈ ORDINALS → comma = [] ∨
        comma = [unit ','] →
      Between isSpace gap' → Written y m d
        (name ++ (dot ++ (gap ++ (day ++ (ordinal ++ (comma ++ (gap' ++ decimal y)))))))

section
variable {y m d n : Nat} {t rest name : Text}

theorem decimal_length_ge {n k : Nat} (large : 10 ^ k ≤ n) : k + 1 ≤ (decimal n).length := by
  induction k generalizing n with
  | zero => exact List.length_pos_iff.mpr (decimal_ne_nil n)
  | succ k ih =>
    have ten : 10 ≤ n := le_trans (by have := Nat.one_le_pow k 10 (by omega); omega) large
    have := ih (n := n / 10) (by omega)
    rw [decimal_append ten, List.length_append, List.length_singleton]
    omega

theorem padded_digits (width n : Nat) : ∀ c ∈ padded width n, isDigit c = true := by
  intro c member
  obtain zero | digit := List.mem_append.mp member
  · rw [List.eq_of_mem_replicate zero]
    decide
  · exact decimal_digits n c digit

theorem Numeral.digits (written : Numeral n t) (small : n < 100) : Digits oneOrTwo t ∧ decimalOf t = n := by
  have short := decimal_length_le (k := 1) small
  have some_left := List.length_pos_iff.mpr (decimal_ne_nil n)
  obtain rfl | rfl := written
  · exact ⟨⟨decimal_digits n, decide_eq_true (by omega)⟩, decimalOf_decimal n⟩
  · exact ⟨⟨padded_digits 2 n, decide_eq_true (.inr (padded_length short))⟩, decimalOf_padded 2 n⟩

theorem year_digits (least : 1000 ≤ y) (most : y < 10000) : Digits (· = 4) (decimal y) := by
  have short := decimal_length_le (k := 3) most
  have long := decimal_length_ge (k := 3) least
  exact ⟨decimal_digits y, decide_eq_true (by omega)⟩

theorem month_name (known : MonthName m name) : month name = m := by
  obtain ⟨-, -, positive, named⟩ := known
  obtain ⟨inside, same⟩ := List.getElem?_eq_some_iff.mp named
  have apart : MONTHS.Nodup := by decide
  have place : MONTHS.idxOf? ((name.take 3).map lowerUnit) = some (m - 1) := by
    rw [List.idxOf?_eq_some_iff]
    refine ⟨inside, same, fun j earlier other => ?_⟩
    rw [← same, apart.getElem_inj_iff] at other
    omega
  rw [month, place]
  dsimp only
  omega

theorem between_of_space (gap : Between isSpace t) : Between isGap t :=
  ⟨gap.some_left, fun c member => gap_of_space (gap.all c member)⟩

theorem Between.read {p : UInt16 → Bool} (between : Between p t) (after : Stops p rest) :
    run p (0 < ·) (t ++ rest) = some (t, rest) :=
  run_append between.all after (decide_eq_true (List.length_pos_iff.mpr between.some_left))

theorem MonthName.read (known : MonthName m name) (after : Stops isAscii rest) :
    run isAscii (3 ≤ ·) (name ++ rest) = some (name, rest) :=
  run_append known.letters after (decide_eq_true known.long)

theorem Between.stops (between : Between isGap t) : Stops isDigit (t ++ rest) ∧ Stops isAscii (t ++ rest) :=
  ⟨stops_of_ne_nil between.some_left between.all fun _ => not_digit_of_gap,
    stops_of_ne_nil between.some_left between.all fun _ => not_letter_of_gap⟩

theorem MonthName.some_left (known : MonthName m name) : name ≠ [] := by
  rintro rfl
  exact absurd known.long (by simp)

theorem MonthName.stops (known : MonthName m name) : Stops isGap (name ++ rest) ∧
    Stops isDigit (name ++ rest) :=
  ⟨stops_of_ne_nil known.some_left known.letters fun _ => not_gap_of_letter,
    stops_of_ne_nil known.some_left known.letters fun _ => not_digit_of_letter⟩

/-- A sign that may be left out stops what it is not of. -/
theorem stops_sign {p : UInt16 → Bool} {c : UInt16} {sign : Text} (written : sign = [] ∨ sign = [c])
    (other : p c = false)
    (after : Stops p rest) : Stops p (sign ++ rest) := by
  obtain rfl | rfl := written
  · exact after
  · exact stops_cons other

theorem skip_sign {c : UInt16} {sign : Text} (written : sign = [] ∨ sign = [c]) (after : Stops (· = c) rest) :
    skip (· = c) (sign ++ rest) = rest := by
  obtain rfl | rfl := written
  · exact skip_stops after
  · exact skip_cons (decide_eq_true rfl)

theorem stops_unit {p : UInt16 → Bool} {c : UInt16} (other : p c = false) (some_left : t ≠ [])
    (all : ∀ x ∈ t, p x = true) :
    Stops (· = c) (t ++ rest) := by
  refine stops_of_ne_nil some_left all fun x of => decide_eq_false ?_
  rintro rfl
  exact absurd of (by simp [other])

theorem ordinal_letters {ordinal : Text} (written : ordinal ∈ ORDINALS) :
    ordinal.length = 2 ∧ ∀ c ∈ ordinal, isAscii c = true := by
  have all : ORDINALS.all (fun o => o.length = 2 ∧ o.all isAscii) = true := by decide
  obtain ⟨length, letters⟩ := of_decide_eq_true (List.all_eq_true.mp all ordinal written)
  exact ⟨length, List.all_eq_true.mp letters⟩

theorem stops_ordinal {p : UInt16 → Bool} {ordinal : Text} (written : ordinal = [] ∨ ordinal ∈ ORDINALS)
    (apart : ∀ c, isAscii c = true → p c = false) (after : Stops p rest) : Stops p (ordinal ++ rest) := by
  obtain rfl | member := written
  · exact after
  · obtain ⟨length, letters⟩ := ordinal_letters member
    exact stops_of_ne_nil (by rintro rfl; simp at length) letters apart

/-- A number is followed by an ordinal's two letters or by none. -/
theorem skipOrdinal_append {ordinal : Text} (written : ordinal = [] ∨ ordinal ∈ ORDINALS)
    (after : Stops isAscii rest) :
    skipOrdinal (ordinal ++ rest) = rest := by
  obtain rfl | member := written
  · rw [List.nil_append, skipOrdinal, if_neg]
    intro member
    obtain ⟨length, letters⟩ := ordinal_letters member
    cases rest with
    | nil => simp at length
    | cons c rest =>
      have letter := letters c (by simp)
      rw [after c rfl] at letter
      exact absurd letter (by simp)
  · obtain ⟨length, -⟩ := ordinal_letters member
    rw [skipOrdinal, ← length, List.take_left', if_pos member, List.drop_left']
    · rfl
    · rfl

theorem Digits.stops {fits : Nat → Bool} (digits : Digits fits t) (none : fits 0 = false) {p : UInt16 → Bool}
    (apart : ∀ c, isDigit c = true → p c = false) : Stops p t := by
  have stops : Stops p (t ++ []) := stops_of_ne_nil (digits.ne_nil none) digits.all apart
  rwa [List.append_nil] at stops

/-- The year digits of a date with its month named. -/
theorem year_read {year : Text}
    (written : year = decimal y ∨ (2000 ≤ y ∧ y < 2100 ∧ year = padded 2 (y - 2000)))
    (least : 1000 ≤ y) (most : y < 10000) : Digits (fun n => n = 4 ∨ n = 2) year ∧ yearOfDigits year = y := by
  obtain rfl | ⟨century, ends, rfl⟩ := written
  · have four := of_decide_eq_true (year_digits least most).length
    refine ⟨⟨decimal_digits y, decide_eq_true (.inl four)⟩, ?_⟩
    rw [yearOfDigits, if_neg (by omega), decimalOf_decimal]
  · have two := padded_length (decimal_length_le (n := y - 2000) (k := 1) (by omega))
    refine ⟨⟨padded_digits 2 _, decide_eq_true (.inr two)⟩, ?_⟩
    rw [yearOfDigits, if_pos two, decimalOf_padded]
    omega

/-- A day, a month's name and a year are read in their places. -/
theorem dayMonthYear_read {day ordinal gap dot comma gap' year : Text} (days : Digits oneOrTwo day)
    (ordinals : ordinal = [] ∨ ordinal ∈ ORDINALS) (gaps : Between isGap gap) (known : MonthName m name)
    (dots : dot = [] ∨ dot = [unit '.']) (commas : comma = [] ∨ comma = [unit ','])
    (gaps' : Between isGap gap')
    (years : Digits (fun n => n = 4 ∨ n = 2) year) :
    dayMonthYear (day ++ (ordinal ++ (gap ++ (name ++ (dot ++ (comma ++ (gap' ++ year))))))) =
      some (day, name, year) := by
  have afterDay : Stops isDigit (ordinal ++ (gap ++ (name ++ (dot ++ (comma ++ (gap' ++ year)))))) :=
    stops_ordinal ordinals (fun _ => not_digit_of_letter) gaps.stops.1
  have afterName : Stops isAscii (dot ++ (comma ++ (gap' ++ year))) :=
    stops_sign dots (by decide) (stops_sign commas (by decide) gaps'.stops.2)
  have afterDot : Stops (· = unit '.') (comma ++ (gap' ++ year)) :=
    stops_sign commas (by decide) (stops_unit (p := isGap) (by decide) gaps'.some_left gaps'.all)
  have afterComma : Stops (· = unit ',') (gap' ++ year) :=
    stops_unit (p := isGap) (by decide) gaps'.some_left gaps'.all
  simp only [dayMonthYear, Option.bind_eq_bind, Option.bind_some, days.read _ afterDay,
    skipOrdinal_append ordinals gaps.stops.2, gaps.read known.stops.1,
    known.read afterName, skip_sign dots afterDot, skip_sign commas afterComma,
    gaps'.read (years.stops rfl fun _ => not_gap_of_digit), years.read_all, if_true]

/-- A month's name, a day and a year are read in their places. -/
theorem monthDayYear_read {dot gap day ordinal comma gap' year : Text} (known : MonthName m name)
    (dots : dot = [] ∨ dot = [unit '.']) (gaps : Between isSpace gap) (days : Digits oneOrTwo day)
    (ordinals : ordinal = [] ∨ ordinal ∈ ORDINALS) (commas : comma = [] ∨ comma = [unit ','])
    (gaps' : Between isSpace gap')
    (years : Digits (· = 4) year) :
    monthDayYear (name ++ (dot ++ (gap ++ (day ++ (ordinal ++ (comma ++ (gap' ++ year))))))) =
      some (day, name, year) := by
  have wide := between_of_space gaps
  have wide' := between_of_space gaps'
  have afterName : Stops isAscii (dot ++ (gap ++ (day ++ (ordinal ++ (comma ++ (gap' ++ year)))))) :=
    stops_sign dots (by decide) wide.stops.2
  have afterDot : Stops (· = unit '.') (gap ++ (day ++ (ordinal ++ (comma ++ (gap' ++ year))))) :=
    stops_unit (p := isSpace) (by decide) gaps.some_left gaps.all
  have afterGap : Stops isSpace (day ++ (ordinal ++ (comma ++ (gap' ++ year)))) :=
    stops_of_ne_nil (days.ne_nil rfl) days.all fun _ => not_space_of_digit
  have afterDay : Stops isDigit (ordinal ++ (comma ++ (gap' ++ year))) :=
    stops_ordinal ordinals (fun _ => not_digit_of_letter) (stops_sign commas (by decide) wide'.stops.1)
  have afterOrdinal : Stops isAscii (comma ++ (gap' ++ year)) := stops_sign commas (by decide) wide'.stops.2
  have afterComma : Stops (· = unit ',') (gap' ++ year) :=
    stops_unit (p := isSpace) (by decide) gaps'.some_left gaps'.all
  simp only [monthDayYear, Option.bind_eq_bind, Option.bind_some, known.read afterName,
    skip_sign dots afterDot, gaps.read afterGap, days.read _ afterDay,
    skipOrdinal_append ordinals afterOrdinal, skip_sign commas afterComma,
    gaps'.read (years.stops rfl fun _ => not_space_of_digit), years.read_all, if_true]

theorem stops_tail {p : UInt16 → Bool} (some_left : t ≠ []) (all : ∀ c ∈ t, p c = false)
    (after : Stops p rest) :
    Stops p (t ++ rest).tail := by
  cases t with
  | nil => exact absurd rfl some_left
  | cons c t => exact stops_append (fun c member => all c (List.mem_cons_of_mem _ member)) after

/-- A number followed by two characters that are no digits isn't the start of three numbers apart. -/
theorem yearLast_none (all : ∀ c ∈ t, isDigit c = true) (first : Stops isDigit rest)
    (second : Stops isDigit rest.tail) :
    yearLast (t ++ rest) = none := by
  have empty : run isDigit oneOrTwo rest.tail = none := run_unfit (l := []) (by simp) second rfl
  by_cases fits : oneOrTwo t.length = true
  · simp only [yearLast, Option.bind_eq_bind, run_append all first fits, Option.bind_some]
    cases rest with
    | nil => rfl
    | cons c rest =>
      by_cases mark : isMark c = true
      · rw [List.tail_cons] at empty
        simp only [one_cons mark, Option.bind_some, empty, Option.bind_none]
      · simp only [one_stops (stops_cons (Bool.eq_false_iff.mpr mark)), Option.bind_none]
  · simp only [yearLast, Option.bind_eq_bind, run_unfit all first (Bool.eq_false_iff.mpr fits),
      Option.bind_none]

theorem part_of_digit {c : UInt16} (digit : isDigit c = true) : isPart c = true := by simp [isPart, digit]

theorem part_of_letter {c : UInt16} (letter : isAscii c = true) : isPart c = true := by simp [isPart, letter]

theorem part_of_gap {c : UInt16} (gap : isGap c = true) : isPart c = true := by simp [isPart, gap]

theorem part_of_sign {c x : UInt16} {sign : Text} (written : sign = [] ∨ sign = [c])
    (part : isPart c = true) (member : x ∈ sign) :
    isPart x = true := by
  obtain rfl | rfl := written
  · exact absurd member (by simp)
  · rwa [List.mem_singleton.mp member]

theorem part_of_ordinal {c : UInt16} {ordinal : Text} (written : ordinal = [] ∨ ordinal ∈ ORDINALS)
    (member : c ∈ ordinal) :
    isPart c = true := by
  obtain rfl | named := written
  · exact absurd member (by simp)
  · exact part_of_letter ((ordinal_letters named).2 c member)

/-- A date with its month named is read by its parts. -/
theorem readStartDate_named {input v day mon year : Text} (typed : Typed input v) (plain : Plain v)
    (early : yearFirst v = none)
    (late : yearLast v = none)
    (found : (dayMonthYear v).or (monthDayYear v) = some (day, mon, year)) (known : MonthName m mon)
    (days : decimalOf day = d) (years : yearOfDigits year = y) (least : 1000 ≤ y) (most : y < 10000)
    (real : RealDate y m d) :
    readStartDate input = { value := some (isoDay (dayNumber y m d)), problem := none } := by
  unfold readStartDate
  simp only [typed_read typed plain, if_neg plain.some_left, early, late, found, month_name known,
    if_pos known.known.1, days,
    years, isoDate_real (show 100 ≤ y by omega) most real]
  rfl

/-- A date with its day first is read as it is written. -/
theorem readStartDate_dayMonth {input day ordinal gap dot comma gap' year : Text} (days : Digits oneOrTwo day)
    (value : decimalOf day = d) (ordinals : ordinal = [] ∨ ordinal ∈ ORDINALS) (gaps : Between isGap gap)
    (known : MonthName m name) (dots : dot = [] ∨ dot = [unit '.']) (commas : comma = [] ∨ comma = [unit ','])
    (gaps' : Between isGap gap')
    (written : year = decimal y ∨ (2000 ≤ y ∧ y < 2100 ∧ year = padded 2 (y - 2000)))
    (typed : Typed input (day ++ (ordinal ++ (gap ++ (name ++ (dot ++ (comma ++ (gap' ++ year))))))))
    (least : 1000 ≤ y) (most : y < 10000) (real : RealDate y m d) :
    readStartDate input = { value := some (isoDay (dayNumber y m d)), problem := none } := by
  obtain ⟨years, same⟩ := year_read written least most
  have afterDay : Stops isDigit (ordinal ++ (gap ++ (name ++ (dot ++ (comma ++ (gap' ++ year)))))) :=
    stops_ordinal ordinals (fun _ => not_digit_of_letter) gaps.stops.1
  have second : Stops isDigit (ordinal ++ (gap ++ (name ++ (dot ++ (comma ++ (gap' ++ year)))))).tail := by
    obtain rfl | member := ordinals
    · rw [List.nil_append]
      exact stops_tail gaps.some_left (fun c member => not_digit_of_gap (gaps.all c member)) known.stops.2
    · obtain ⟨length, letters⟩ := ordinal_letters member
      exact stops_tail (by rintro rfl; simp at length)
        (fun c member => not_digit_of_letter (letters c member)) gaps.stops.1
  have plain : Plain (day ++ (ordinal ++ (gap ++ (name ++ (dot ++ (comma ++ (gap' ++ year))))))) := by
    have split : day ++ (ordinal ++ (gap ++ (name ++ (dot ++ (comma ++ (gap' ++ year)))))) =
        day ++ ((ordinal ++ (gap ++ (name ++ (dot ++ (comma ++ gap'))))) ++ year) := by simp
    rw [split]
    refine plain_of_parts (days.ne_nil rfl) (fun c member => not_space_of_digit (days.all c member))
      (years.ne_nil rfl)
      years.all fun c member => ?_
    simp only [List.mem_append] at member
    rcases member with member | (member | member | member | member | member | member) | member
    · exact part_of_digit (days.all c member)
    · exact part_of_ordinal ordinals member
    · exact part_of_gap (gaps.all c member)
    · exact part_of_letter (known.letters c member)
    · exact part_of_sign dots (by decide) member
    · exact part_of_sign commas (by decide) member
    · exact part_of_gap (gaps'.all c member)
    · exact part_of_digit (years.all c member)
  have found := dayMonthYear_read days ordinals gaps known dots commas gaps' years
  exact readStartDate_named typed plain (yearFirst_none days.all (oneOrTwo_ne_four days) afterDay)
    (yearLast_none days.all afterDay second) (by rw [found]; rfl) known value same least most real

/-- A date with its month's name first is read as it is written. -/
theorem readStartDate_monthDay {input dot gap day ordinal comma gap' : Text} (known : MonthName m name)
    (dots : dot = [] ∨ dot = [unit '.']) (gaps : Between isSpace gap) (days : Digits oneOrTwo day)
    (value : decimalOf day = d)
    (ordinals : ordinal = [] ∨ ordinal ∈ ORDINALS) (commas : comma = [] ∨ comma = [unit ','])
    (gaps' : Between isSpace gap')
    (typed : Typed input (name ++ (dot ++ (gap ++ (day ++ (ordinal ++ (comma ++ (gap' ++ decimal y))))))))
    (least : 1000 ≤ y) (most : y < 10000) (real : RealDate y m d) :
    readStartDate input = { value := some (isoDay (dayNumber y m d)), problem := none } := by
  have years := year_digits least most
  have same := (year_read (.inl rfl) least most).2
  have second : Stops isDigit
    (name ++ (dot ++ (gap ++ (day ++ (ordinal ++ (comma ++ (gap' ++ decimal y))))))).tail :=
    stops_tail known.some_left (fun c member => not_digit_of_letter (known.letters c member))
      (stops_sign dots (by decide) (between_of_space gaps).stops.1)
  have plain : Plain (name ++ (dot ++ (gap ++ (day ++ (ordinal ++ (comma ++ (gap' ++ decimal y))))))) := by
    have split : name ++ (dot ++ (gap ++ (day ++ (ordinal ++ (comma ++ (gap' ++ decimal y)))))) =
        name ++ ((dot ++ (gap ++ (day ++ (ordinal ++ (comma ++ gap'))))) ++ decimal y) := by simp
    rw [split]
    refine plain_of_parts known.some_left
      (fun c member => not_space_of_letter (known.letters c member)) (years.ne_nil rfl)
      years.all fun c member => ?_
    simp only [List.mem_append] at member
    rcases member with member | (member | member | member | member | member | member) | member
    · exact part_of_letter (known.letters c member)
    · exact part_of_sign dots (by decide) member
    · exact part_of_gap (gap_of_space (gaps.all c member))
    · exact part_of_digit (days.all c member)
    · exact part_of_ordinal ordinals member
    · exact part_of_sign commas (by decide) member
    · exact part_of_gap (gap_of_space (gaps'.all c member))
    · exact part_of_digit (years.all c member)
  have other : dayMonthYear
    (name ++ (dot ++ (gap ++ (day ++ (ordinal ++ (comma ++ (gap' ++ decimal y))))))) = none := by
    have none : run isDigit oneOrTwo
      (name ++ (dot ++ (gap ++ (day ++ (ordinal ++ (comma ++ (gap' ++ decimal y))))))) = none :=
      run_unfit (l := []) (by simp) known.stops.2 rfl
    simp only [dayMonthYear, Option.bind_eq_bind, none, Option.bind_none]
  have found := monthDayYear_read known dots gaps days ordinals commas gaps' years
  exact readStartDate_named typed plain (yearFirst_none (a := []) (by simp) (by simp) known.stops.2)
    (yearLast_none (t := []) (by simp) known.stops.2 second) (by rw [other, found]; rfl) known value
      same least most real

/-- Read as the date, or refused for its two readings. -/
def ReadsAs (input : Text) (y m d : Nat) : Prop :=
  readStartDate input = { value := some (isoDay (dayNumber y m d)), problem := none } ∨
    ∃ v a b dayFirst monthFirst, readStartDate input = ambiguous v a b dayFirst monthFirst

/-- A date with its year first is read as it is written. -/
theorem readsAs_yearFirst {input month day : Text} {s s' : UInt16} (months : Numeral m month)
    (days : Numeral d day)
    (mark : isMark s = true) (mark' : isMark s' = true)
    (typed : Typed input (marked (decimal y) s month s' day))
    (least : 1000 ≤ y) (most : y < 10000) (real : RealDate y m d) : ReadsAs input y m d := by
  have lengths := Sync.monthLength_bounds (12 * y + (m - 1))
  have month' := real.month
  have day' := real.day
  obtain ⟨monthDigits, monthValue⟩ := months.digits (by omega)
  obtain ⟨dayDigits, dayValue⟩ := days.digits (by omega)
  have years := year_digits least most
  have plain := plain_marked years monthDigits dayDigits rfl rfl mark mark'
  have found := yearFirst_marked years monthDigits dayDigits mark mark'
  left
  unfold readStartDate
  simp only [typed_read typed plain, if_neg plain.some_left, found, decimalOf_decimal, monthValue, dayValue,
    isoDate_real (show 100 ≤ y by omega) most real]
  rfl

/-- A numeric date is read either way round. -/
theorem numeric_reads {input : Text} (n : NumericDate) (typed : Typed input n.text) (late : 100 ≤ n.year) :
    (n.DayFirst → ReadsAs input n.year n.second n.first) ∧
      (n.MonthFirst → ReadsAs input n.year n.first n.second) := by
  have small := n.year_lt
  unfold ReadsAs
  rw [n.read typed]
  by_cases real : RealDate n.year n.second n.first
  · by_cases real' : RealDate n.year n.first n.second
    · by_cases same : dayNumber n.year n.second n.first = dayNumber n.year n.first n.second
      · have one : readNumeric (notADate input) n.text n.first n.second n.year = _ :=
          readNumeric_same late small real real' same
        exact ⟨fun _ => .inl one, fun _ => .inl (same ▸ one)⟩
      · have two : readNumeric (notADate input) n.text n.first n.second n.year = _ :=
          readNumeric_ambiguous late small real real' same
        exact ⟨fun _ => .inr ⟨_, _, _, _, _, two⟩, fun _ => .inr ⟨_, _, _, _, _, two⟩⟩
    · exact ⟨fun _ => .inl (readNumeric_dayFirst late small real real'), fun monthFirst =>
        absurd monthFirst real'⟩
  · exact ⟨fun dayFirst => absurd dayFirst real, fun monthFirst =>
      .inl (readNumeric_monthFirst late small real monthFirst)⟩

/-- A date with its year last, as it is written. -/
def numericDate {a b : Text} {s s' : UInt16} (first : Digits oneOrTwo a)
    (second : Digits oneOrTwo b) (mark : isMark s = true)
    (mark' : isMark s' = true) (least : 1000 ≤ y) (most : y < 10000) : NumericDate :=
  { a, b, y := decimal y, s, s', a_digits := first, b_digits := second,
    y_digits := year_digits least most, mark, mark' }

/-- A date in any of the written forms is read as that date. -/
theorem Written.readsAs {input v : Text} (written : Written y m d v) (typed : Typed input v)
    (least : 1000 ≤ y) (most : y < 10000)
    (real : RealDate y m d) : ReadsAs input y m d := by
  have lengths := Sync.monthLength_bounds (12 * y + (m - 1))
  have month' := real.month
  have day' := real.day
  cases written with
  | yearFirst months days mark mark' => exact readsAs_yearFirst months days mark mark' typed least most real
  | dayFirst months days mark mark' =>
    obtain ⟨monthDigits, monthValue⟩ := months.digits (by omega)
    obtain ⟨dayDigits, dayValue⟩ := days.digits (by omega)
    have reads := (numeric_reads (numericDate dayDigits monthDigits mark mark' least most) typed
      (by simp only [NumericDate.year, numericDate, decimalOf_decimal]; omega)).1
    simp only [NumericDate.DayFirst, NumericDate.year, NumericDate.first, NumericDate.second,
      numericDate, decimalOf_decimal,
      monthValue, dayValue] at reads
    exact reads real
  | monthFirst months days mark mark' =>
    obtain ⟨monthDigits, monthValue⟩ := months.digits (by omega)
    obtain ⟨dayDigits, dayValue⟩ := days.digits (by omega)
    have reads := (numeric_reads (numericDate monthDigits dayDigits mark mark' least most) typed
      (by simp only [NumericDate.year, numericDate, decimalOf_decimal]; omega)).2
    simp only [NumericDate.MonthFirst, NumericDate.year, NumericDate.first, NumericDate.second,
      numericDate, decimalOf_decimal,
      monthValue, dayValue] at reads
    exact reads real
  | dayMonth days ordinals gaps known dots commas gaps' years =>
    obtain ⟨dayDigits, dayValue⟩ := days.digits (by omega)
    exact .inl (readStartDate_dayMonth dayDigits dayValue ordinals gaps known dots commas gaps'
      years typed least most real)
  | monthDay known dots gaps days ordinals commas gaps' =>
    obtain ⟨dayDigits, dayValue⟩ := days.digits (by omega)
    exact .inl (readStartDate_monthDay known dots gaps dayDigits dayValue ordinals commas gaps'
      typed least most real)

/-- What a numeric date is read as, by which of its readings are dates. -/
structure NumericOutcome (n : NumericDate) (input : Text) : Prop where
  accepted : (∃ value, (readStartDate input).value = some value) ↔
    (n.DayFirst ∧ ¬n.MonthFirst) ∨ (¬n.DayFirst ∧ n.MonthFirst) ∨
      (n.DayFirst ∧ n.MonthFirst ∧ dayNumber n.year n.second n.first = dayNumber n.year n.first n.second)
  two : n.Ambiguous → readStartDate input =
    ambiguous n.text n.first n.second (isoDay (dayNumber n.year n.second n.first))
    (isoDay (dayNumber n.year n.first n.second))
  neither : ¬n.DayFirst → ¬n.MonthFirst → readStartDate input = notADate input

/-- A numeric date has one of the outcomes. -/
theorem numeric_outcome {input : Text} (n : NumericDate) (typed : Typed input n.text) (late : 100 ≤ n.year) :
    NumericOutcome n input := by
  have small := n.year_lt
  constructor
  · rw [n.read typed]
    by_cases real : n.DayFirst
    · by_cases real' : n.MonthFirst
      · by_cases same : dayNumber n.year n.second n.first = dayNumber n.year n.first n.second
        · rw [readNumeric_same late small real real' same]
          exact ⟨fun _ => .inr (.inr ⟨real, real', same⟩), fun _ => ⟨_, rfl⟩⟩
        · rw [readNumeric_ambiguous late small real real' same]
          simp [ambiguous, real, real', same]
      · rw [readNumeric_dayFirst late small real real']
        exact ⟨fun _ => .inl ⟨real, real'⟩, fun _ => ⟨_, rfl⟩⟩
    · by_cases real' : n.MonthFirst
      · rw [readNumeric_monthFirst late small real real']
        exact ⟨fun _ => .inr (.inl ⟨real, real'⟩), fun _ => ⟨_, rfl⟩⟩
      · rw [readNumeric_neither small real real']
        simp [notADate, real, real']
  · rintro ⟨real, real', apart⟩
    rw [n.read typed, readNumeric_ambiguous late small real real' apart]
  · intro real real'
    rw [n.read typed, readNumeric_neither small real real']

/-- Only dates of the calendar are read; a numeric date is read when one of its readings is a date,
or both are one; and a date written in a supported format is read as itself or refused for its two
readings. -/
theorem readStartDate_right (input : Text) :
    Dated (readStartDate input) ∧
      (∀ n : NumericDate, Typed input n.text → 100 ≤ n.year → NumericOutcome n input) ∧
      ∀ (y m d : Nat) (v : Text), 1000 ≤ y → y < 10000 → RealDate y m d → Written y m d v → Typed input v →
        ReadsAs input y m d :=
  ⟨readStartDate_dated input, fun n typed late => numeric_outcome n typed late,
    fun _ _ _ _ least most real written typed => written.readsAs typed least most real⟩

end

theorem written_november : Written 2026 11 3 (text "3 Nov 2026") := by
  have parts : text "3 Nov 2026" = text "3" ++
    ([] ++ (text " " ++ (text "Nov" ++ ([] ++ ([] ++ (text " " ++ text "2026")))))) := by
    decide
  rw [parts]
  have gap : Between isGap (text " ") := ⟨by decide, List.all_eq_true.mp (by decide)⟩
  exact .dayMonth (.inl rfl) (.inl rfl) gap ⟨List.all_eq_true.mp (by decide), by decide, by decide⟩
    (.inl rfl) (.inl rfl) gap
    (.inl rfl)

theorem typed_alone (v : Text) : Typed v v := ⟨[], [], [], .inl rfl, by simp, by simp, by simp⟩

theorem readStartDate_right_november : RealDate 2026 11 3 ∧ ReadsAs (text "3 Nov 2026") 2026 11 3 :=
  ⟨by decide, (readStartDate_right (text "3 Nov 2026")).2.2
    2026 11 3 (text "3 Nov 2026") (by decide) (by decide) (by decide)
    written_november (typed_alone _)⟩

/-- A text with no reading is no date rather than ambiguous, a year of two digits' worth has none,
and a year written in two digits is this century's. -/
theorem other_start_dates :
    readStartDate (text "31/31/2026") = notADate (text "31/31/2026") ∧
      (RealDate 50 1 13 ∧ readStartDate (text "13/01/0050") = notADate (text "13/01/0050")) ∧
      (RealDate 1999 11 3 ∧ (readStartDate (text "3-Nov-99")).value = some (text "2099-11-03")) := by
  decide

end OpenAduc.UserImport
