import OpenAduc.Csv.Codec
import OpenAduc.Lib.Traverse

namespace OpenAduc.Csv
open Naming

/-- A character of a cell's plain text. -/
def isPlain (c : UInt16) : Bool := !needsQuotes c

theorem plain_of_isPlain {c : UInt16} (plain : isPlain c = true) :
    c ≠ unit '"' ∧ c ≠ unit ',' ∧ c ≠ unit '\r' ∧ c ≠ unit '\n' := by
  have outside : c ∉ text "\",\r\n" := by simpa [isPlain, needsQuotes] using plain
  refine ⟨?_, ?_, ?_, ?_⟩ <;> rintro rfl <;> exact outside (by decide)

/-- What reading a written cell gives back: a value that starts like a formula with an apostrophe in front. -/
def readBack : Cell → Text
  | .empty => []
  | .value s => if startsLikeFormula s then APOSTROPHE :: s else s
  | .exact s => s

/-- A cell's text as it is written, and the text it stands for. -/
inductive Written : Text → Text → Prop
  | bare {v : Text} : (∀ c ∈ v, isPlain c = true) → Written v v
  | quoted (v : Text) : Written (quote v) v

/-- A row's text, and its cells. -/
inductive WrittenRow : Text → List Text → Prop
  | last {w v : Text} : Written w v → WrittenRow w [v]
  | more {w v line : Text} {vs : List Text} : Written w v → WrittenRow line vs →
    WrittenRow (w ++ unit ',' :: line) (v :: vs)

inductive LineEnd
  | crlf
  | lf
  deriving DecidableEq

def CRLF : Text := [unit '\r', unit '\n']

def LineEnd.text : LineEnd → Text
  | .crlf => CRLF
  | .lf => [unit '\n']

/-- The text of rows, a line each, and whether the last line has its break too. -/
inductive WrittenSheet (eol : LineEnd) : Bool → Text → List (List Text) → Prop
  | done : WrittenSheet eol true [] []
  | open_ {line : Text} {vs : List Text} : WrittenRow line vs → WrittenSheet eol false line [vs]
  | more {ended : Bool} {line rest : Text} {vs : List Text} {rows : List (List Text)} : WrittenRow line vs →
      WrittenSheet eol ended rest rows → WrittenSheet eol ended (line ++ (eol.text ++ rest)) (vs :: rows)

/-- What reading a written row gives back: no cells at all are written as nothing, which is one empty cell. -/
def readRow (cells : List Cell) : List Text := if cells = [] then [[]] else cells.map readBack

theorem csvRow_ok {cells : List Cell} {line : Text} (wrote : csvRow cells = .ok line) :
    ∃ written, cells.mapM cellText = .ok written ∧ line = join (text ",") written := by
  simp only [csvRow, bind, Except.bind, pure, Except.pure] at wrote
  split at wrote
  · cases wrote
  next written ran =>
    cases wrote
    exact ⟨written, ran, rfl⟩

/-- A cell is written as its text, quoted or bare. -/
theorem written_cell {c : Cell} {w : Text} (wrote : cellText c = .ok w) : Written w (readBack c) := by
  cases c with
  | empty =>
    cases wrote
    exact .bare (by simp)
  | value s =>
    simp only [cellText, Except.ok.injEq] at wrote
    subst wrote
    unfold csvCell
    dsimp only
    split
    next => exact .quoted (neutralise s)
    next bare =>
      refine .bare fun c member => ?_
      have none_ := List.any_eq_true.not.mp bare
      simp only [not_exists, not_and, Bool.not_eq_true] at none_
      simp [isPlain, none_ c member]
  | exact s =>
    simp only [cellText, csvExactCell] at wrote
    split at wrote
    · cases wrote
    · cases wrote
      exact .quoted s

/-- A row of cells, joined by commas, is a written row of their texts. -/
theorem writtenRow_of_cells {cells : List Cell} {written : List Text}
    (wrote : cells.mapM cellText = .ok written)
    (some_ : cells ≠ []) : WrittenRow (join (text ",") written) (cells.map readBack) := by
  induction cells generalizing written with
  | nil => exact absurd rfl some_
  | cons c cells ih =>
    obtain ⟨t, more, wroteCell, wroteMore, rfl⟩ := Traverse.mapM_cons_ok wrote
    cases cells with
    | nil =>
      cases Traverse.mapM_nil_ok.mp wroteMore
      have one : join (text ",") [t] = t := by simp [join, List.intercalate]
      rw [one]
      exact .last (written_cell wroteCell)
    | cons c' cells =>
      obtain ⟨t', more', _, _, rfl⟩ := Traverse.mapM_cons_ok wroteMore
      have split : join (text ",") (t :: t' :: more') = t ++ unit ',' :: join (text ",") (t' :: more') := by
        have comma : text "," = [unit ','] := by decide
        simp [join, List.intercalate, comma]
      rw [split]
      exact .more (written_cell wroteCell) (ih wroteMore (by simp))

theorem writtenRow {cells : List Cell} {line : Text} (wrote : csvRow cells = .ok line) :
    WrittenRow line (readRow cells) := by
  obtain ⟨written, ran, rfl⟩ := csvRow_ok wrote
  unfold readRow
  split
  next empty =>
    subst empty
    cases Traverse.mapM_nil_ok.mp ran
    show WrittenRow [] [[]]
    exact .last (.bare (by simp))
  next some_ => exact writtenRow_of_cells ran some_

/-- The text of a sheet: its rows, a line each, `ended` being whether the last line has its break too. -/
def sheetText (eol : LineEnd) (ended : Bool) (rows : List (List Cell)) : Except Text Text := do
  let lines ← rows.mapM csvRow
  return join eol.text lines ++ if ended then eol.text else []

/-- Rows joined by a line ending, with one at the end or not, are a written sheet. -/
theorem writtenSheet_of_lines (eol : LineEnd) (ended : Bool) {rows : List (List Cell)} {lines : List Text}
    (wrote : rows.mapM csvRow = .ok lines) (some_ : rows ≠ []) :
    WrittenSheet eol ended (join eol.text lines ++ if ended then eol.text else []) (rows.map readRow) := by
  induction rows generalizing lines with
  | nil => exact absurd rfl some_
  | cons row rows ih =>
    obtain ⟨line, more, wroteRow, wroteMore, rfl⟩ := Traverse.mapM_cons_ok wrote
    cases rows with
    | nil =>
      cases Traverse.mapM_nil_ok.mp wroteMore
      have one : join eol.text [line] = line := by simp [join, List.intercalate]
      rw [one]
      cases ended with
      | true =>
        have sheet := WrittenSheet.more (writtenRow wroteRow)
          (WrittenSheet.done : WrittenSheet eol true [] [])
        rw [List.append_nil] at sheet
        exact sheet
      | false =>
        rw [if_neg Bool.false_ne_true, List.append_nil]
        exact .open_ (writtenRow wroteRow)
    | cons row' rows =>
      obtain ⟨line', more', _, _, rfl⟩ := Traverse.mapM_cons_ok wroteMore
      have split : join eol.text (line :: line' :: more') =
        line ++ (eol.text ++ join eol.text (line' :: more')) := by
        simp [join, List.intercalate]
      rw [split, List.append_assoc, List.append_assoc]
      exact .more (writtenRow wroteRow) (ih wroteMore (by simp))

section
variable {d : TableDelimiter} {r : Reader} {rest : Text}

/-- Within quotes, up to the closing one: every quote inside is doubled. -/
theorem readChars_quoted {s : Text} (inside : r.quoted = true) (next : rest.head? ≠ some (unit '"')) :
    r.readChars d false (doubleQuotes s ++ unit '"' :: rest) =
      { r with cell := r.cell ++ s, quoted := false }.readChars d false rest := by
  induction s generalizing r with
  | nil => simp [doubleQuotes, Reader.readChars, Reader.take, inside, next]
  | cons c s ih =>
    by_cases isQuote : c = unit '"'
    · have doubled : doubleQuotes (c :: s) = unit '"' :: unit '"' :: doubleQuotes s := by
        simp [doubleQuotes, isQuote]
      have taken : r.take d (unit '"') (unit '"' :: (doubleQuotes s ++ unit '"' :: rest)).head? =
          (r.push (unit '"'), true) := by
        simp [Reader.take, inside]
      rw [doubled, List.cons_append, List.cons_append, Reader.readChars_cons, taken, Reader.readChars_passed,
        ih (by simpa [Reader.push] using inside)]
      simp [Reader.push, isQuote]
    · have single : doubleQuotes (c :: s) = c :: doubleQuotes s := by simp [doubleQuotes, isQuote]
      have taken : r.take d c (doubleQuotes s ++ unit '"' :: rest).head? = (r.push c, false) := by
        simp [Reader.take, inside, isQuote]
      rw [single, List.cons_append, Reader.readChars_cons, taken, ih (by simpa [Reader.push] using inside)]
      simp [Reader.push]

theorem readChars_quote {s : Text} (open_ : r.quoted = false) (first : r.cellStart = true)
    (next : rest.head? ≠ some (unit '"')) :
    r.readChars d false (quote s ++ rest) =
      { r with cell := r.cell ++ s, cellStart := false, quoteStart :=
  r.records.length + 1 }.readChars d false rest := by
  have taken : r.take d (unit '"') (doubleQuotes s ++ unit '"' :: rest).head? =
      ({ r with quoted := true, quoteStart := r.records.length + 1, cellStart := false }, false) := by
    simp [Reader.take, open_, first]
  have shape : quote s ++ rest = unit '"' :: (doubleQuotes s ++ unit '"' :: rest) := by simp [quote]
  rw [shape, Reader.readChars_cons, taken, readChars_quoted rfl next]
  simp [open_]

theorem readChars_bare {s : Text} (open_ : r.quoted = false) (plain : ∀ c ∈ s, isPlain c = true)
    (apart : ∀ c ∈ s, c ≠ d.unit) :
    r.readChars d false (s ++ rest) =
      { r with cell := r.cell ++ s, cellStart := r.cellStart && s.isEmpty }.readChars d false rest := by
  induction s generalizing r with
  | nil => simp
  | cons c s ih =>
    obtain ⟨notQuote, _, notReturn, notLine⟩ := plain_of_isPlain (plain c List.mem_cons_self)
    have taken : r.take d c (s ++ rest).head? = ({ r.push c with cellStart := false }, false) := by
      simp [Reader.take, open_, notQuote, apart c List.mem_cons_self, notReturn, notLine]
    rw [List.cons_append, Reader.readChars_cons, taken, ih (by simpa [Reader.push] using open_)
      (fun x member => plain x (List.mem_cons_of_mem _ member)) fun x member =>
        apart x (List.mem_cons_of_mem _ member)]
    simp [Reader.push]

/-- A cell is read up to whatever ends it, by any delimiter it holds none of outside quotes. -/
theorem exists_readWritten {w v : Text} (written : Written w v)
    (apart : ∀ c ∈ v, isPlain c = true → c ≠ d.unit)
    (open_ : r.quoted = false) (first : r.cellStart = true) (empty : r.cell = [])
    (next : rest.head? ≠ some (unit '"')) :
    ∃ cellStart quoteStart, r.readChars d false
      (w ++ rest) = { r with cell := v, cellStart, quoteStart }.readChars d false rest := by
  cases written with
  | bare plain =>
    refine ⟨r.cellStart && w.isEmpty, r.quoteStart, ?_⟩
    rw [readChars_bare open_ plain fun c member => apart c member (plain c member), empty, List.nil_append]
  | quoted =>
    refine ⟨false, r.records.length + 1, ?_⟩
    rw [readChars_quote open_ first next, empty, List.nil_append]

theorem take_comma {next : Option UInt16} (open_ : r.quoted = false) :
    r.take .comma (unit ',') next = (r.endCell, false) := by
  have notQuote : unit ',' ≠ unit '"' := by decide
  simp [Reader.take, open_, notQuote, TableDelimiter.unit]

theorem readChars_comma (open_ : r.quoted = false) :
    r.readChars .comma false (unit ',' :: rest) = r.endCell.readChars .comma false rest := by
  rw [Reader.readChars_cons, take_comma open_]

theorem plain_apart_comma (v : Text) : ∀ c ∈ v, isPlain c = true → c ≠ TableDelimiter.comma.unit :=
  fun _ _ plain => (plain_of_isPlain plain).2.1

/-- A row is read up to whatever ends it, its last cell still open. -/
theorem exists_readLine (rest : Text) {line : Text} {vs : List Text} (row : WrittenRow line vs)
    (open_ : r.quoted = false)
    (first : r.cellStart = true) (empty : r.cell = []) (next : rest.head? ≠ some (unit '"')) :
    ∃ front v cellStart quoteStart, vs = front ++ [v] ∧ r.readChars .comma false (line ++ rest) =
      { r with record := r.record ++ front, cell := v, cellStart, quoteStart }.readChars .comma
      false rest := by
  induction row generalizing r with
  | @last w v written =>
    obtain ⟨cellStart, quoteStart, read⟩ :=
      exists_readWritten written (plain_apart_comma v) open_ first empty next
    exact ⟨[], v, cellStart, quoteStart, rfl, by rw [read, List.append_nil]⟩
  | @more w v line vs written row ih =>
    have comma : (unit ',' :: (line ++ rest)).head? ≠ some (unit '"') := by
      rw [List.head?_cons]
      decide
    obtain ⟨cellStart, quoteStart, read⟩ :=
      exists_readWritten written (plain_apart_comma v) open_ first empty comma
    obtain ⟨front, v', cellStart', quoteStart', rfl, readMore⟩ :=
      ih (r := { r with cell := v, cellStart, quoteStart : Reader }.endCell)
      open_ rfl rfl
    refine ⟨v :: front, v', cellStart', quoteStart', rfl, ?_⟩
    rw [List.append_assoc, List.cons_append, read, readChars_comma (by exact open_), readMore]
    simp [Reader.endCell]

theorem unit_apart (d : TableDelimiter) : d.unit ≠ unit '"' ∧ d.unit ≠ unit '\r' ∧ d.unit ≠ unit '\n' := by
  cases d <;> decide

theorem take_lineFeed {next : Option UInt16} (open_ : r.quoted = false) :
    r.take d (unit '\n') next = (r.endRecord, false) := by
  have notQuote : unit '\n' ≠ unit '"' := by decide
  have notReturn : unit '\n' ≠ unit '\r' := by decide
  simp [Reader.take, open_, notQuote, notReturn, (unit_apart d).2.2.symm]

theorem take_carriageReturn {next : Option UInt16} (open_ : r.quoted = false) :
    r.take d (unit '\r') next = (r.endRecord, decide (next = some (unit '\n'))) := by
  have notQuote : unit '\r' ≠ unit '"' := by decide
  simp [Reader.take, open_, notQuote, (unit_apart d).2.1.symm]

theorem readChars_eol {eol : LineEnd} (open_ : r.quoted = false) :
    r.readChars d false (eol.text ++ rest) = r.endRecord.readChars d false rest := by
  cases eol with
  | crlf =>
    show r.readChars d false (unit '\r' :: unit '\n' :: rest) = _
    rw [Reader.readChars_cons, take_carriageReturn open_]
    rfl
  | lf =>
    show r.readChars d false (unit '\n' :: rest) = _
    rw [Reader.readChars_cons, take_lineFeed open_]

theorem eol_head (eol : LineEnd) (rest : Text) : (eol.text ++ rest).head? ≠ some (unit '"') ∧
    (eol.text ++ rest).head? ≠ some 0xfeff := by
  cases eol with
  | crlf => exact ⟨by show some (unit '\r') ≠ _; decide, by show some (unit '\r') ≠ _; decide⟩
  | lf => exact ⟨by show some (unit '\n') ≠ _; decide, by show some (unit '\n') ≠ _; decide⟩

/-- The record the end of the text ends, if one is begun. -/
def Reader.finish (r : Reader) : Reader :=
  if r.cell ≠ [] ∨ r.record ≠ [] ∨ r.quoted = true then r.endRecord else r

theorem readRecords_records (source : Text) :
    (readRecords source d).records = (Reader.start.readChars d false source).finish.records := rfl

theorem readRecords_closed {source : Text} (closed : (Reader.start.readChars d false source).quoted = false) :
    (readRecords source d).unclosedAt = none := by
  unfold readRecords
  simp [closed]

/-- A sheet is read back row by row, but for an empty last line without a break. -/
theorem exists_readSheet {eol : LineEnd} {ended : Bool} {source : Text} {rows : List (List Text)}
    (sheet : WrittenSheet eol ended source rows)
    (open_ : r.quoted = false) (first : r.cellStart = true) (empty : r.cell = []) (fresh : r.record = []) :
    (r.readChars .comma false source).quoted = false ∧
      ∃ blank, (blank = [] ∨ ended = false ∧ blank = [[[]]]) ∧
      (r.readChars .comma false source).finish.records ++ blank = r.records ++ rows := by
  induction sheet generalizing r with
  | done =>
    refine ⟨open_, [], .inl rfl, ?_⟩
    simp [Reader.readChars, Reader.finish, empty, fresh, open_]
  | @open_ line vs row =>
    obtain ⟨front, v, cellStart, quoteStart, rfl, read⟩ := exists_readLine [] row open_ first empty (by simp)
    rw [List.append_nil] at read
    rw [read]
    refine ⟨open_, ?_⟩
    by_cases begun : v ≠ [] ∨ front ≠ []
    · refine ⟨[], .inl rfl, ?_⟩
      have ends : v ≠ [] ∨ r.record ++ front ≠ [] ∨ r.quoted = true := by
        simpa [fresh] using begun.imp id .inl
      rw [Reader.readChars, Reader.finish, if_pos ends]
      simp [Reader.endRecord, Reader.endCell, fresh]
    · obtain ⟨rfl, rfl⟩ : v = [] ∧ front = [] := by simpa using begun
      refine ⟨[[[]]], .inr ⟨rfl, rfl⟩, ?_⟩
      simp [Reader.readChars, Reader.finish, fresh, open_]
  | @more ended line rest vs rows row sheet ih =>
    obtain ⟨front, v, cellStart, quoteStart, rfl, read⟩ :=
      exists_readLine (eol.text ++ rest) row open_ first empty (eol_head eol rest).1
    rw [read, readChars_eol (by exact open_)]
    obtain ⟨closed, blank, small, records⟩ := ih
      (r := { r with record := r.record ++ front, cell := v, cellStart, quoteStart :
        Reader }.endRecord) open_ rfl rfl rfl
    refine ⟨closed, blank, small, ?_⟩
    rw [records]
    simp [Reader.endRecord, Reader.endCell, fresh]

end

end OpenAduc.Csv
