import OpenAduc.Csv.Reading
import OpenAduc.Csv.Table

namespace OpenAduc.Csv
open Naming

section
variable {d : TableDelimiter} {r : Reader} {rest : Text}

/-- A character read takes back no record. -/
theorem records_take {ch : UInt16} {next : Option UInt16} : r.records <+: (r.take d ch next).1.records := by
  unfold Reader.take
  split
  · split
    · exact List.prefix_refl _
    · split
      · exact List.prefix_refl _
      · exact List.prefix_refl _
  · split
    · exact List.prefix_refl _
    · split
      · exact List.prefix_refl _
      · split
        · exact List.prefix_append _ _
        · exact List.prefix_refl _

/-- What has been read stays. -/
theorem records_readChars {source : Text} {passed : Bool} :
    r.records <+: (r.readChars d passed source).records := by
  induction source generalizing r passed with
  | nil => cases passed <;> exact List.prefix_refl _
  | cons ch rest ih =>
    cases passed with
    | true => exact ih
    | false => exact records_take.trans ih

theorem records_finish : r.records <+: r.finish.records := by
  unfold Reader.finish
  split
  · exact List.prefix_append _ _
  · exact List.prefix_refl _

theorem exists_more (d : TableDelimiter) (source : Text) (passed : Bool) {before : List (List Text)}
    {first : List Text}
    (starts : r.records = before ++ [first]) :
    ∃ more, (r.readChars d passed source).finish.records = before ++ first :: more := by
  have stays : r.records <+: (r.readChars d passed source).finish.records :=
    records_readChars.trans records_finish
  obtain ⟨more, same⟩ := stays
  refine ⟨more, ?_⟩
  rw [← same, starts, List.append_assoc, List.singleton_append]

/-- Past the start of a cell, a text without the delimiter is read as one cell's, up to
the end of its line at the latest. -/
theorem exists_firstRecord {line tail : Text} (open_ : r.quoted = false)
    (begun : r.cellStart = false) (fresh : r.record = [])
    (some_ : r.cell ≠ []) (apart : ∀ c ∈ line, c ≠ d.unit)
    (ends : tail = [] ∨ ∃ (eol : LineEnd) (more : Text), tail = eol.text ++ more) :
    ∃ cell more, r.cell <+: cell ∧ (r.readChars d false (line ++ tail)).finish.records =
      r.records ++ [cell] :: more := by
  induction line generalizing r with
  | nil =>
    rcases ends with rfl | ⟨eol, more, rfl⟩
    · refine ⟨r.cell, [], List.prefix_refl _, ?_⟩
      rw [List.append_nil, Reader.readChars, Reader.finish, if_pos (.inl some_)]
      simp [Reader.endRecord, Reader.endCell, fresh]
    · rw [List.nil_append, readChars_eol open_]
      obtain ⟨more', same⟩ := exists_more d more false
        (show r.endRecord.records = r.records ++ [[r.cell]] by simp [Reader.endRecord, Reader.endCell, fresh])
      exact ⟨r.cell, more', List.prefix_refl _, same⟩
  | cons ch line ih =>
    rw [List.cons_append, Reader.readChars_cons]
    have ended : ∀ passes, ∃ cell more, r.cell <+: cell ∧
        (r.endRecord.readChars d passes (line ++ tail)).finish.records = r.records ++ [cell] :: more := by
      intro passes
      obtain ⟨more, same⟩ := exists_more d (line ++ tail) passes
        (show r.endRecord.records = r.records ++ [[r.cell]] by simp [Reader.endRecord, Reader.endCell, fresh])
      exact ⟨r.cell, more, List.prefix_refl _, same⟩
    by_cases returns : ch = unit '\r'
    · rw [returns, take_carriageReturn open_]
      exact ended _
    · by_cases feeds : ch = unit '\n'
      · rw [feeds, take_lineFeed open_]
        exact ended _
      · have taken : r.take d ch (line ++ tail).head? = ({ r.push ch with cellStart := false }, false) := by
          simp [Reader.take, open_, begun, apart ch List.mem_cons_self, returns, feeds]
        obtain ⟨cell, more, longer, same⟩ :=
          ih (r := { r.push ch with cellStart := false }) open_ rfl fresh (by simp [Reader.push])
          fun c member => apart c (List.mem_cons_of_mem _ member)
        rw [taken]
        exact ⟨cell, more, (List.prefix_append _ _).trans longer, same⟩

theorem written_chars {w v : Text} (written : Written w v) : ∀ c ∈ w, c = unit '"' ∨ c ∈ v := by
  cases written with
  | bare => exact fun c member => .inr member
  | quoted =>
    intro c member
    simp only [quote, doubleQuotes, List.mem_append, List.mem_flatMap, List.mem_singleton] at member
    rcases member with (rfl | ⟨x, inside, made⟩) | rfl
    · exact .inl rfl
    · split at made
      · simp only [List.mem_cons, List.not_mem_nil, or_false, or_self] at made
        exact .inl made
      · exact .inr (List.mem_singleton.mp made ▸ inside)
    · exact .inl rfl

/-- A row as it is written has quotes, commas and its cells' characters only. -/
theorem writtenRow_chars {line : Text} {vs : List Text} (row : WrittenRow line vs) :
    ∀ c ∈ line, c = unit '"' ∨ c = unit ',' ∨ ∃ v ∈ vs, c ∈ v := by
  induction row with
  | @last w v written =>
    intro c member
    rcases written_chars written c member with isQuote | inside
    · exact .inl isQuote
    · exact .inr (.inr ⟨v, List.mem_cons_self, inside⟩)
  | @more w v line vs written row ih =>
    intro c member
    rcases List.mem_append.mp member with member | member
    · rcases written_chars written c member with isQuote | inside
      · exact .inl isQuote
      · exact .inr (.inr ⟨v, List.mem_cons_self, inside⟩)
    · rcases List.mem_cons.mp member with rfl | member
      · exact .inr (.inl rfl)
      · rcases ih c member with isQuote | isComma | ⟨v', inside, here⟩
        · exact .inl isQuote
        · exact .inr (.inl isComma)
        · exact .inr (.inr ⟨v', List.mem_cons_of_mem _ inside, here⟩)

/-- A row of two cells or more that hold none of a delimiter is no header by it: the first record is
one cell. -/
theorem widths_other {line tail : Text} {vs : List Text} (row : WrittenRow line vs) (two : 2 ≤ vs.length)
    (free : ∀ v ∈ vs, ∀ c ∈ v, c ≠ d.unit) (other : d ≠ .comma)
    (ends : tail = [] ∨ ∃ (eol : LineEnd) (more : Text), tail = eol.text ++ more) :
    (widthsOf (line ++ tail) d).head?.getD 0 < 2 := by
  have notComma : unit ',' ≠ d.unit := by
    cases d with
    | comma => exact absurd rfl other
    | tab => decide
    | semicolon => decide
    | pipe => decide
  have first : ∃ cell more, unit ',' ∈ cell ∧ (readRecords (line ++ tail) d).records = [cell] :: more := by
    cases row with
    | last written => simp at two
    | @more w v line vs written row =>
      have next : (unit ',' :: (line ++ tail)).head? ≠ some (unit '"') := by
        rw [List.head?_cons]
        decide
      obtain ⟨cellStart, quoteStart, read⟩ := exists_readWritten (r := .start) written
        (fun c member _ => free v List.mem_cons_self c member) rfl rfl rfl next
      have taken : ({ Reader.start with cell := v, cellStart, quoteStart } : Reader).take d
        (unit ',') (line ++ tail).head? =
          ({ ({ Reader.start with cell := v, cellStart, quoteStart } : Reader).push
            (unit ',') with cellStart := false }, false) := by
        have notQuote : unit ',' ≠ unit '"' := by decide
        have notReturn : unit ',' ≠ unit '\r' := by decide
        have notFeed : unit ',' ≠ unit '\n' := by decide
        simp [Reader.take, Reader.start, notQuote, notComma, notReturn, notFeed]
      have apart : ∀ c ∈ line, c ≠ d.unit := by
        intro c member same
        rcases writtenRow_chars row c member with rfl | rfl | ⟨v', inside, here⟩
        · exact (unit_apart d).1 same.symm
        · exact notComma same
        · exact free v' (List.mem_cons_of_mem _ inside) c here same
      obtain ⟨cell, more, longer, records⟩ := exists_firstRecord
        (r := { ({ Reader.start with cell := v, cellStart, quoteStart } : Reader).push
          (unit ',') with cellStart := false })
        rfl rfl rfl (by simp [Reader.push]) apart ends
      refine ⟨cell, more, longer.subset (by simp [Reader.push]), ?_⟩
      rw [readRecords_records, List.append_assoc, List.cons_append, read, Reader.readChars_cons,
        taken, records]
      rfl
  obtain ⟨cell, more, comma, records⟩ := first
  have visible : isBlank cell = false := by
    have kept : trim cell ≠ [] := List.ne_nil_of_mem (Runs.mem_strip comma (by decide))
    simp [isBlank, kept]
  have one : widthOf [cell] = 1 := by
    have same : [cell].rdropWhile isBlank = [cell] := Runs.rdropWhile_eq_self fun c last => by
      cases last
      exact visible
    rw [widthOf, same]
    rfl
  simp [widthsOf, records, one]

/-- With no other delimiter making two columns of the header, the comma is taken. -/
theorem detectDelimiter_comma {source : Text}
    (others : ∀ d, d ≠ .comma → (widthsOf source d).head?.getD 0 < 2) :
    detectDelimiter source = .comma := by
  have kept : ∀ best d, d ≠ .comma → better source best d = best :=
    fun best d other => if_pos (others d other)
  have comma : better source none .comma = none ∨ ∃ score, better source none .comma =
    some { delimiter := .comma, score } := by
    unfold better
    dsimp only
    split
    · exact .inl rfl
    · exact .inr ⟨_, rfl⟩
  simp only [detectDelimiter, TABLE_DELIMITERS, List.foldl_cons, List.foldl_nil]
  rw [kept _ .pipe (by simp), kept _ .semicolon (by simp), kept _ .tab (by simp)]
  rcases comma with none_ | ⟨score, some_⟩
  · rw [none_]
    rfl
  · rw [some_]
    rfl

end

/-- A text that begins with a line naming a delimiter: the line up to its break, and what follows. -/
inductive SepLine : Text → UInt16 → Text → Prop
  | line {opening word closing gap after rest : Text} {named ending : UInt16} :
      opening = [] ∨ opening = [unit '"'] → word.map lowerUnit = text "sep=" →
        isLineTerminator named = false →
      closing = [] ∨ closing = [unit '"'] → (∀ c ∈ gap, c = unit ' ' ∨ c = unit '\t') →
        isLineBreak ending = true →
      rest <:+ after → SepLine (opening ++ (word ++ named :: (closing ++ (gap ++ ending :: after))))
        named rest

section
variable {source more : Text} {named : UInt16} {rest : Text}

theorem exists_opening (t : Text) : ∃ opening, (opening = [] ∨ opening = [unit '"']) ∧
    t = opening ++ dropQuote t := by
  unfold dropQuote
  split
  next starts =>
    cases t with
    | nil => cases starts
    | cons c t =>
      cases Option.some.inj starts
      exact ⟨[unit '"'], .inr rfl, rfl⟩
  next => exact ⟨[], .inl rfl, rfl⟩

theorem dropQuote_opening {opening t : Text} (opens : opening = [] ∨ opening = [unit '"'])
    (other : t.head? ≠ some (unit '"')) :
    dropQuote (opening ++ t) = t := by
  rcases opens with rfl | rfl
  · exact if_neg other
  · rfl

/-- What `dropLineBreak` drops is a line break at the front. -/
theorem exists_ending {t : Text} (broken : dropLineBreak t = some rest) :
    ∃ ending after, t = ending :: after ∧ isLineBreak ending = true ∧ rest <:+ after := by
  cases t with
  | nil => cases broken
  | cons c after =>
    simp only [dropLineBreak] at broken
    split at broken
    next returns =>
      refine ⟨c, after, rfl, by simp [isLineBreak, returns], ?_⟩
      cases broken
      split
      · exact List.tail_suffix after
      · exact List.suffix_refl after
    next =>
      split at broken
      next feeds =>
        cases broken
        exact ⟨c, _, rfl, by simp [isLineBreak, feeds], List.suffix_refl _⟩
      next => cases broken

theorem exists_broken {ending : UInt16} (after : Text) (ends : isLineBreak ending = true) :
    ∃ rest, dropLineBreak (ending :: after) = some rest := by
  rcases of_decide_eq_true ends with rfl | rfl
  · exact ⟨_, rfl⟩
  · exact ⟨_, rfl⟩

/-- What `SEP_LINE` matches is a line that names a delimiter. -/
theorem sepLine_of_exec (found : SEP_LINE source = some (named, rest)) : SepLine source named rest := by
  obtain ⟨opening, opens, shape⟩ := exists_opening source
  unfold SEP_LINE at found
  dsimp only at found
  split at found
  next reads =>
    split at found
    · cases found
    next c after rest_ =>
      split at found
      · cases found
      next terminator =>
        obtain ⟨rest', broken, same⟩ := Option.map_eq_some_iff.mp found
        cases same
        obtain ⟨closing, closes, shapeAfter⟩ := exists_opening after
        obtain ⟨ending, after', left, ends, follows⟩ := exists_ending broken
        have gap := List.takeWhile_append_dropWhile
          (p := fun c => decide (c = unit ' ' ∨ c = unit '\t')) (l := dropQuote after)
        rw [left] at gap
        have word := List.take_append_drop 4 (dropQuote source)
        rw [rest_, shapeAfter, ← gap] at word
        rw [shape, ← word]
        refine .line opens reads (eq_false_of_ne_true terminator) closes (fun x member => ?_) ends follows
        have gapped := List.mem_takeWhile_imp member
        exact of_decide_eq_true gapped
  next => cases found

/-- What `lowerUnit` makes an equals sign is one. -/
theorem equals_of_lower {c : UInt16} (lower : lowerUnit c = unit '=') : c = unit '=' := by
  unfold lowerUnit at lower
  split at lower
  next upper =>
    have bounds : 65 ≤ c.toNat ∧ c.toNat ≤ 90 :=
      ⟨UInt16.le_iff_toNat_le.mp upper.1, UInt16.le_iff_toNat_le.mp upper.2⟩
    have sum : (c + 32).toNat = c.toNat + 32 := by
      rw [UInt16.toNat_add, show (32 : UInt16).toNat = 32 from rfl]
      omega
    have equals : (c + 32).toNat = 61 := congrArg UInt16.toNat lower
    omega
  next => exact lower

theorem word_head {word t : Text} (reads : word.map lowerUnit = text "sep=") :
    (word ++ t).head? ≠ some (unit '"') := by
  cases word with
  | nil => cases reads
  | cons c word =>
    intro starts
    cases Option.some.inj starts
    have first : lowerUnit (unit '"') = unit 's' := (List.cons.inj reads).1
    revert first
    decide

/-- A line that names a delimiter is matched, and gives that delimiter. -/
theorem exec_of_sepLine (line : SepLine source named rest) :
    ∃ rest', SEP_LINE source = some (named, rest') := by
  cases line with
  | @line opening word closing gap after _ _ ending opens reads names closes blank ends follows =>
    have four : word.length = 4 := by
      rw [← List.length_map lowerUnit, reads]
      decide
    have notQuote : (gap ++ ending :: after).head? ≠ some (unit '"') := by
      cases gap with
      | nil =>
        intro starts
        cases Option.some.inj starts
        revert ends
        decide
      | cons c gap =>
        intro starts
        cases Option.some.inj starts
        revert blank
        simp only [List.mem_cons, forall_eq_or_imp]
        exact fun blank => absurd blank.1 (by decide)
    have notBlank : ¬(ending = unit ' ' ∨ ending = unit '\t') := by
      rcases of_decide_eq_true ends with rfl | rfl <;> decide
    have dropped : (gap ++ ending :: after).dropWhile
      (fun c => decide (c = unit ' ' ∨ c = unit '\t')) = ending :: after := by
      rw [List.dropWhile_append_of_pos fun c member =>
        decide_eq_true (blank c member), List.dropWhile_cons_of_neg (by simpa using notBlank)]
    obtain ⟨rest', broken⟩ := exists_broken after ends
    refine ⟨rest', ?_⟩
    unfold SEP_LINE
    dsimp only
    rw [dropQuote_opening opens (word_head reads), ← four, List.take_left, if_pos reads, List.drop_left]
    simp only [names, Bool.false_eq_true, if_false, dropQuote_opening closes notQuote, dropped,
      broken, Option.map_some]

/-- A line naming the delimiter is the text's first line, whatever comes after that. -/
theorem sepLine_append (broken : ∃ c ∈ source, isLineBreak c = true)
    (line : SepLine (source ++ more) named rest) :
    ∃ rest', SepLine source named rest' := by
  generalize whole : source ++ more = t at line
  cases line with
  | @line opening word closing gap after _ _ ending opens reads names closes blank ends follows =>
    have unbroken : ∀ c ∈ opening ++ (word ++ named :: (closing ++ gap)), isLineBreak c = false := by
      have quote_ : isLineBreak (unit '"') = false := by decide
      intro c member
      simp only [List.mem_append, List.mem_cons] at member
      rcases member with member | member | rfl | member | member
      · rcases opens with rfl | rfl
        · cases member
        · exact List.mem_singleton.mp member ▸ quote_
      · have lower : lowerUnit c ∈ text "sep=" := reads ▸ List.mem_map_of_mem member
        refine eq_false_of_ne_true fun breaks => ?_
        rcases of_decide_eq_true breaks with rfl | rfl
        · revert lower
          decide
        · revert lower
          decide
      · unfold isLineTerminator at names
        simp only [Bool.or_eq_false_iff] at names
        exact names.1.1
      · rcases closes with rfl | rfl
        · cases member
        · exact List.mem_singleton.mp member ▸ quote_
      · rcases blank c member with rfl | rfl <;> decide
    have parts : source ++ more = (opening ++ (word ++ named :: (closing ++ gap))) ++ (ending :: after) := by
      rw [whole]
      simp
    obtain ⟨c, member, breaks⟩ := broken
    rcases List.append_eq_append_iff.mp parts with ⟨z, same, _⟩ | ⟨z, same, tail⟩
    · have inside := unbroken c (same ▸ List.mem_append_left _ member)
      rw [inside] at breaks
      cases breaks
    · cases z with
      | nil =>
        have inside := unbroken c (by rw [same, List.append_nil] at member; exact member)
        rw [inside] at breaks
        cases breaks
      | cons e z =>
        cases (List.cons.inj tail).1
        rw [same]
        refine ⟨z, ?_⟩
        have shape : opening ++ (word ++ named :: (closing ++ gap)) ++ ending :: z =
            opening ++ (word ++ named :: (closing ++ (gap ++ ending :: z))) := by simp
        rw [shape]
        exact .line opens reads names closes blank ends (List.suffix_refl z)

theorem SepLine.append (line : SepLine source named rest) (more : Text) :
    ∃ rest', SepLine (source ++ more) named rest' := by
  cases line with
  | @line opening word closing gap after _ _ ending opens reads names closes blank ends follows =>
    refine ⟨after ++ more, ?_⟩
    have shape : opening ++ (word ++ named :: (closing ++ (gap ++ ending :: after))) ++ more =
        opening ++ (word ++ named :: (closing ++ (gap ++ ending :: (after ++ more)))) := by simp
    rw [shape]
    exact .line opens reads names closes blank ends (List.suffix_refl _)

/-- With a whole line there, what follows it doesn't change whether the text begins with a line
naming the delimiter. -/
theorem exec_append (broken : ∃ c ∈ source, isLineBreak c = true) (none_ : SEP_LINE source = none) :
    SEP_LINE (source ++ more) = none := by
  rw [← Option.not_isSome_iff_eq_none, Option.isSome_iff_exists]
  rintro ⟨⟨named, rest⟩, found⟩
  obtain ⟨rest', line⟩ := sepLine_append broken (sepLine_of_exec found)
  obtain ⟨_, some_⟩ := exec_of_sepLine line
  rw [none_] at some_
  cases some_

theorem exec_of_append (none_ : SEP_LINE (source ++ more) = none) : SEP_LINE source = none := by
  rw [← Option.not_isSome_iff_eq_none, Option.isSome_iff_exists]
  rintro ⟨⟨named, rest⟩, found⟩
  obtain ⟨rest', line⟩ := (sepLine_of_exec found).append more
  obtain ⟨_, some_⟩ := exec_of_sepLine line
  rw [none_] at some_
  cases some_

end

end OpenAduc.Csv
