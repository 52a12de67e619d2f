import OpenAduc.Csv.Delimiters

namespace OpenAduc.Csv
open Naming

section
variable {eol : LineEnd} {source tail line : Text} {vs : List Text} {rows : List (List Text)}

theorem trim_marked (v : Text) : trim (BYTE_ORDER_MARK :: v) = trim v := by
  have space : isSpace BYTE_ORDER_MARK = true := by decide
  rw [trim, trim, Runs.strip, Runs.strip, List.dropWhile_cons_of_pos space]

/-- Dropping a mark from a written cell leaves the cell, or one without a space at its start. -/
theorem exists_unmarked {w v : Text} (written : Written w v) :
    ∃ w' v', Written w' v' ∧ trim v' = trim v ∧ v' ⊆ v ∧
      ∀ t : Text, t.head? ≠ some BYTE_ORDER_MARK → dropMark (w ++ t) = w' ++ t := by
  have whole : w.head? ≠ some BYTE_ORDER_MARK → ∃ w' v', Written w' v' ∧ trim v' = trim v ∧ v' ⊆ v ∧
      ∀ t : Text, t.head? ≠ some BYTE_ORDER_MARK → dropMark (w ++ t) = w' ++ t := by
    intro other
    refine ⟨w, v, written, rfl, List.Subset.refl v, fun t after => if_neg ?_⟩
    cases w with
    | nil => exact after
    | cons c w => exact other
  cases written with
  | bare plain =>
    cases w with
    | nil => exact whole (by simp)
    | cons c w =>
      by_cases marked : c = BYTE_ORDER_MARK
      · subst marked
        exact ⟨w, w, .bare fun x member => plain x (List.mem_cons_of_mem _ member), (trim_marked w).symm,
          List.subset_cons_self _ _, fun t _ => if_pos rfl⟩
      · exact whole fun starts => marked (Option.some.inj starts)
  | quoted =>
    refine whole fun starts => ?_
    have first : unit '"' = BYTE_ORDER_MARK := Option.some.inj starts
    revert first
    decide

/-- A byte order mark before a row is dropped with nothing else of it. -/
theorem exists_unmarkedRow (row : WrittenRow line vs) :
    ∃ line' vs', WrittenRow line' vs' ∧ vs'.map trim = vs.map trim ∧ (∀ v' ∈ vs', ∃ v ∈ vs, v' ⊆ v) ∧
      ∀ t : Text, t.head? ≠ some BYTE_ORDER_MARK → dropMark (line ++ t) = line' ++ t := by
  cases row with
  | @last w v written =>
    obtain ⟨w', v', written', same, inside, drops⟩ := exists_unmarked written
    refine ⟨w', [v'], .last
      written', by rw [List.map_singleton, List.map_singleton, same], fun x member => ?_, drops⟩
    exact ⟨v, List.mem_singleton_self v, List.mem_singleton.mp member ▸ inside⟩
  | @more w v line vs written row =>
    obtain ⟨w', v', written', same, inside, drops⟩ := exists_unmarked written
    refine ⟨w' ++ unit ',' :: line, v' :: vs,
      .more written' row, by rw [List.map_cons, List.map_cons, same], fun x member => ?_,
      fun t _ => ?_⟩
    · rcases List.mem_cons.mp member with rfl | member
      · exact ⟨v, List.mem_cons_self, inside⟩
      · exact ⟨x, List.mem_cons_of_mem _ member, List.Subset.refl x⟩
    · have comma : (unit ',' :: (line ++ t)).head? ≠ some BYTE_ORDER_MARK := by
        rw [List.head?_cons]
        decide
      rw [List.append_assoc, List.cons_append, drops _ comma, List.append_assoc, List.cons_append]

end

section
variable {header : List Text} {t : Taken}

/-- A row's cells and its number, for the rows that aren't blank. -/
def keptRows (rows : List (List Text)) (first : Nat) : List (List Text × Nat) :=
  ((rows.map (·.map trim)).zipIdx first).filter fun r => r.1.any (· ≠ [])

/-- The cells of a row, as many as the header's: padded with empty ones or cut. -/
def padded (width : Nat) (cells : List Text) : List Text :=
  (cells ++ List.replicate (width - cells.length) []).take width

def wideProblems (width : Nat) (kept : List (List Text × Nat)) : List Text :=
  (kept.filter fun r => (r.1.drop width).any (· ≠ [])).map fun r => tooWide r.2 r.1.length width

theorem fitTo_eq (width : Nat) (cells : List Text) : fitTo width cells = padded width cells := by
  refine List.ext_getElem? fun k => ?_
  unfold fitTo padded
  rw [List.getElem?_take, List.getElem?_map]
  by_cases inside : k < width
  · rw [List.getElem?_range inside, if_pos inside, Option.map_some]
    by_cases held : k < cells.length
    · rw [List.getElem?_append_left held, List.getElem?_eq_getElem held]
      rfl
    · rw [List.getElem?_append_right (by omega), List.getElem?_eq_none (by omega),
        List.getElem?_replicate, if_pos (by omega)]
      rfl
  · rw [if_neg inside, List.getElem?_eq_none (by simpa using inside)]
    rfl

/-- A record is dropped where no cell of it is kept. -/
theorem all_empty (cells : List Text) : cells.all (· = []) = !cells.any (· ≠ []) := by
  rw [List.all_eq_not_any_not]
  simp

theorem takeRecord_blank {record : List Text} {i : Nat}
    (blank : (record.map trim).any (· ≠ []) = false) : takeRecord t (record, i) = t := by
  unfold takeRecord
  simp only [all_empty, blank, Bool.not_false, if_true]

theorem takeRecord_header {record : List Text} {i : Nat}
    (some_ : (record.map trim).any (· ≠ []) = true) (none_ : t.header = none) :
    takeRecord t (record, i) = { t with header := some (record.map trim) } := by
  have shown : ¬(record.map trim).all (· = []) = true := by
    rw [all_empty, some_]
    simp
  unfold takeRecord
  simp only [if_neg shown, none_]

theorem takeRecord_row {record : List Text} {i : Nat}
    (some_ : (record.map trim).any (· ≠ []) = true) (has : t.header = some header) :
    takeRecord t (record, i) = { t with
      rows := t.rows ++ [padded header.length (record.map trim)]
      rowNumbers := t.rowNumbers ++ [i + 1]
      problems := t.problems ++
        if ((record.map trim).drop header.length).any (· ≠ []) then
          [tooWide (i + 1) (record.map trim).length header.length] else [] } := by
  have shown : ¬(record.map trim).all (· = []) = true := by
    rw [all_empty, some_]
    simp
  unfold takeRecord
  simp only [if_neg shown, has, fitTo_eq]

/-- The records after the header. -/
theorem takeRecords_rows {rows : List (List Text)} {i : Nat} (has : t.header = some header) :
    (rows.zipIdx i).foldl takeRecord t = { t with
      rows := t.rows ++ (keptRows rows (i + 1)).map fun r => padded header.length r.1
      rowNumbers := t.rowNumbers ++ (keptRows rows (i + 1)).map Prod.snd
      problems := t.problems ++ wideProblems header.length (keptRows rows (i + 1)) } := by
  induction rows generalizing t i with
  | nil => simp [keptRows, wideProblems]
  | cons row rows ih =>
    rw [List.zipIdx_cons, List.foldl_cons]
    cases shown : (row.map trim).any (· ≠ []) with
    | false =>
      have same : keptRows (row :: rows) (i + 1) = keptRows rows (i + 1 + 1) := by
        simp only [keptRows, List.map_cons, List.zipIdx_cons]
        exact List.filter_cons_of_neg (by simp only [shown]; simp)
      rw [takeRecord_blank shown, ih has, same]
    | true =>
      have same : keptRows (row :: rows) (i + 1) = (row.map trim, i + 1) :: keptRows rows (i + 1 + 1) := by
        simp only [keptRows, List.map_cons, List.zipIdx_cons]
        exact List.filter_cons_of_pos shown
      rw [takeRecord_row shown has]
      refine (ih (by exact has)).trans ?_
      rw [same]
      by_cases wide : ((row.map trim).drop header.length).any (· ≠ []) = true
      · have told : wideProblems header.length ((row.map trim, i + 1) :: keptRows rows (i + 1 + 1)) =
            tooWide (i + 1) (row.map trim).length header.length :: wideProblems header.length
              (keptRows rows (i + 1 + 1)) := by
          unfold wideProblems
          rw [List.filter_cons_of_pos (by exact wide), List.map_cons]
        rw [told, if_pos wide]
        simp
      · have told : wideProblems header.length ((row.map trim, i + 1) :: keptRows rows (i + 1 + 1)) =
            wideProblems header.length (keptRows rows (i + 1 + 1)) := by
          unfold wideProblems
          rw [List.filter_cons_of_neg (by exact wide)]
        rw [told, if_neg wide]
        simp

end

section
variable {r : Reader} {line source rest : Text} {vs : List Text}

def isShown (c : UInt16) : Bool := !isSpace c && !decide (c = unit '"')

def weight (t : Text) : Nat := t.countP isShown

/-- A record's, with one for each of its cells. -/
def rowWeight (record : List Text) : Nat := record.foldr (fun cell n => weight cell + 1 + n) 0

/-- Several records', each without what its last cell adds. -/
def sheetWeight (records : List (List Text)) : Nat :=
  records.foldr (fun record n => rowWeight record - 1 + n) 0

/-- What has been read so far. -/
def Reader.weight (r : Reader) : Nat :=
  sheetWeight r.records + rowWeight r.record + Csv.weight r.cell

theorem weight_append (s t : Text) : weight (s ++ t) = weight s + weight t := List.countP_append

theorem weight_cons (c : UInt16) (t : Text) : weight (c :: t) = weight [c] + weight t := weight_append [c] t

theorem rowWeight_cons (cell : Text) (record : List Text) :
    rowWeight (cell :: record) = weight cell + 1 + rowWeight record := rfl

theorem rowWeight_concat (record : List Text) (cell : Text) :
    rowWeight (record ++ [cell]) = rowWeight record + (weight cell + 1) := by
  induction record with
  | nil => exact Nat.add_comm _ _
  | cons c record ih =>
    rw [List.cons_append, rowWeight_cons, ih, rowWeight_cons]
    omega

theorem sheetWeight_cons (record : List Text) (records : List (List Text)) :
    sheetWeight (record :: records) = rowWeight record - 1 + sheetWeight records := rfl

theorem sheetWeight_concat (records : List (List Text)) (record : List Text) :
    sheetWeight (records ++ [record]) = sheetWeight records + (rowWeight record - 1) := by
  induction records with
  | nil => exact Nat.add_comm _ _
  | cons r records ih =>
    rw [List.cons_append, sheetWeight_cons, ih, sheetWeight_cons]
    omega

theorem rowWeight_le {records : List (List Text)} {record : List Text} (member : record ∈ records) :
    rowWeight record ≤ sheetWeight records + 1 := by
  induction records with
  | nil => cases member
  | cons r records ih =>
    rw [sheetWeight_cons]
    rcases List.mem_cons.mp member with rfl | member
    · omega
    · have later := ih member
      omega

theorem weight_spaces {s : Text} (spaces : ∀ c ∈ s, isSpace c = true) : weight s = 0 :=
  List.countP_eq_zero.mpr fun c member => by simp [isShown, spaces c member]

theorem weight_trim (t : Text) : weight (trim t) = weight t := by
  have start : ∀ s : Text, weight (s.dropWhile isSpace) = weight s := by
    intro s
    have spaces : weight (s.takeWhile isSpace) = 0 :=
      weight_spaces fun c member => List.mem_takeWhile_imp member
    have parts := weight_append (s.takeWhile isSpace) (s.dropWhile isSpace)
    rw [List.takeWhile_append_dropWhile] at parts
    omega
  have reversed : ∀ s : Text, weight s.reverse = weight s := fun s => List.countP_reverse
  show weight ((t.dropWhile isSpace).reverse.dropWhile isSpace).reverse = weight t
  rw [reversed, start, reversed, start]

theorem rowWeight_trim (record : List Text) : rowWeight (record.map trim) = rowWeight record := by
  induction record with
  | nil => rfl
  | cons cell record ih => rw [List.map_cons, rowWeight_cons, rowWeight_cons, weight_trim, ih]

/-- Quoting a cell changes nothing of its weight. -/
theorem weight_quote (v : Text) : weight (quote v) = weight v := by
  have one : weight [unit '"'] = 0 := by decide
  have doubled : weight (doubleQuotes v) = weight v := by
    induction v with
    | nil => rfl
    | cons c v ih =>
      have split : doubleQuotes (c :: v) = (if c = unit '"' then [unit '"', unit '"'] else [c]) ++
        doubleQuotes v := rfl
      rw [split, weight_append, ih, weight_cons c v]
      by_cases isQuote : c = unit '"'
      · have two : weight [unit '"', unit '"'] = 0 := by decide
        rw [if_pos isQuote, isQuote, one, two]
      · rw [if_neg isQuote]
  rw [quote, weight_append, weight_append, one, doubled]
  omega

theorem weight_written {w v : Text} (written : Written w v) : weight w = weight v := by
  cases written with
  | bare => rfl
  | quoted => exact weight_quote v

theorem weight_writtenRow (row : WrittenRow line vs) : weight line + 1 = rowWeight vs := by
  induction row with
  | last written => rw [rowWeight_cons, weight_written written]; rfl
  | @more w v line vs written row ih =>
    have comma : weight [unit ','] = 1 := by decide
    rw [weight_append, weight_cons (unit ','), weight_written written, comma, rowWeight_cons]
    omega

theorem weight_endRecord : r.endRecord.weight = r.weight := by
  simp only [Reader.endRecord, Reader.endCell, Reader.weight, sheetWeight_concat, rowWeight_concat]
  have none_ : rowWeight [] = 0 := rfl
  have empty : weight [] = 0 := rfl
  omega

theorem weight_push (r : Reader) (c : UInt16) : (r.push c).weight = r.weight + weight [c] := by
  simp only [Reader.push, Reader.weight, weight_append]
  omega

/-- A character adds its own weight at most. -/
theorem weight_take (r : Reader) (ch : UInt16) (next : Option UInt16) :
    (r.take .comma ch next).1.weight ≤ r.weight + weight [ch] := by
  have kept : ∀ r' : Reader, r'.weight = r.weight → r'.weight ≤ r.weight + weight [ch] := by
    intro r' same
    omega
  have pushed : ∀ c, weight [c] = weight [ch] → (r.push c).weight ≤ r.weight + weight [ch] := by
    intro c same
    rw [weight_push, same]
  unfold Reader.take
  split
  · split
    next => exact pushed ch rfl
    next isQuote =>
      have quote_ : ch = unit '"' := by simpa using isQuote
      split
      · exact pushed (unit '"') (by rw [quote_])
      · exact kept _ rfl
  · split
    · exact kept _ rfl
    · split
      next isComma =>
        have comma : weight [ch] = 1 := by
          rw [isComma]
          decide
        have empty : weight [] = 0 := rfl
        simp only [Reader.endCell, Reader.weight, rowWeight_concat, comma]
        omega
      next =>
        split
        · exact kept _ weight_endRecord
        · exact pushed ch rfl

/-- Reading a text adds its weight at most. -/
theorem weight_readChars (r : Reader) (passed : Bool) (source : Text) :
    (r.readChars .comma passed source).weight ≤ r.weight + weight source := by
  induction source generalizing r passed with
  | nil => cases passed <;> exact Nat.le_add_right _ _
  | cons ch source ih =>
    rw [weight_cons]
    cases passed with
    | true =>
      have later := ih r false
      rw [Reader.readChars_passed]
      omega
    | false =>
      have first := weight_take r ch source.head?
      have later := ih (r.take .comma ch source.head?).1 (r.take .comma ch source.head?).2
      rw [Reader.readChars_cons]
      omega

/-- No record weighs more than the text. -/
theorem weight_record {record : List Text} (member : record ∈ (readRecords source .comma).records) :
    rowWeight record ≤ weight source + 1 := by
  have whole : (Reader.start.readChars .comma false source).finish.weight ≤ weight source := by
    have read := weight_readChars .start false source
    have none_ : Reader.start.weight = 0 := rfl
    unfold Reader.finish
    split
    · rw [weight_endRecord]
      omega
    · omega
  have one := rowWeight_le member
  rw [readRecords_records] at one
  unfold Reader.weight at whole
  omega

/-- A line naming the delimiter leaves less of the text. -/
theorem weight_sepLine {named : UInt16} (line : SepLine source named rest) : weight rest < weight source := by
  cases line with
  | @line opening word closing gap after _ _ ending opens reads names closes blank ends follows =>
    obtain ⟨front, rfl⟩ := follows
    have equals : 1 ≤ weight word := by
      have member : unit '=' ∈ word.map lowerUnit := by
        rw [reads]
        decide
      obtain ⟨c, inside, lower⟩ := List.mem_map.mp member
      have shown : isShown c = true := by
        rw [equals_of_lower lower]
        decide
      exact List.countP_pos_iff.mpr ⟨c, inside, shown⟩
    have less : weight rest ≤ weight (named :: (closing ++ (gap ++ ending :: (front ++ rest)))) := by
      refine List.Sublist.countP_le (List.IsSuffix.sublist ?_)
      exact ⟨named :: (closing ++ (gap ++ ending :: front)), by simp⟩
    rw [weight_append, weight_append]
    omega

end

/-- What a table says that reads back a sheet: the header's cells as they were written, and
each row's that isn't blank, trimmed and as many as the header's, with its number. -/
structure ReadsBack (columns : List Cell) (written : List (List Cell)) (t : ParsedTable) : Prop where
  delimiter : t.delimiter = .comma
  header : t.header = columns.map fun c => trim (readBack c)
  rows : t.rows = (keptRows (written.map readRow) 2).map fun r => padded columns.length r.1
  rowNumbers : t.rowNumbers = (keptRows (written.map readRow) 2).map Prod.snd
  problems : t.problems = wideProblems columns.length (keptRows (written.map readRow) 2) ++
    unreadableProblem (unreadableRows t.header t.rows t.rowNumbers)

/-- A header of two columns or more, not only its first filled in, with no other delimiter in it. -/
structure TableHeader (header : List Cell) : Prop where
  two : 2 ≤ header.length
  filled : ∃ i, 1 ≤ i ∧ ∃ c, header[i]? = some c ∧ trim (readBack c) ≠ []
  free : ∀ c ∈ header, ∀ x ∈ readBack c, x ≠ unit '\t' ∧ x ≠ unit ';' ∧ x ≠ unit '|'

/-- A text with a byte order mark before it, or without. -/
def marked (mark : Bool) (source : Text) : Text := (if mark then [BYTE_ORDER_MARK] else []) ++ source

section
variable {header : List Cell} {rows : List (List Cell)} {eol : LineEnd} {mark ended : Bool}
    {line source tail : Text} {vs : List Text}

theorem eolText_head (eol : LineEnd) : eol.text.head? ≠ some BYTE_ORDER_MARK := by
  have head := (eol_head eol []).2
  rwa [List.append_nil] at head

theorem exists_body (row : WrittenRow line vs) (mark : Bool) :
    ∃ line' vs', WrittenRow line' vs' ∧ vs'.map trim = vs.map trim ∧ (∀ v' ∈ vs', ∃ v ∈ vs, v' ⊆ v) ∧
      ∀ t : Text, t.head? ≠ some BYTE_ORDER_MARK → dropMark (marked mark (line ++ t)) = line' ++ t := by
  cases mark with
  | true => exact ⟨line, vs, row, rfl, fun v member => ⟨v, member, List.Subset.refl v⟩, fun t _ => if_pos rfl⟩
  | false => exact exists_unmarkedRow row

/-- A sheet is its header's line, and the lines of its rows where it has some or its line has a break. -/
theorem exists_sheet (wrote : sheetText eol ended (header :: rows) = .ok source) :
    ∃ line tail, csvRow header = .ok line ∧ source = line ++ tail ∧
      (tail = [] ∧ rows = [] ∨ ∃ more, tail = eol.text ++ more ∧
        WrittenSheet eol ended more (rows.map readRow)) := by
  simp only [sheetText, bind, Except.bind, pure, Except.pure] at wrote
  split at wrote
  · cases wrote
  next lines ran =>
    cases wrote
    obtain ⟨line, more, wroteHeader, wroteRows, rfl⟩ := Traverse.mapM_cons_ok ran
    cases rows with
    | nil =>
      cases Traverse.mapM_nil_ok.mp wroteRows
      have one : join eol.text [line] = line := by simp [join, List.intercalate]
      refine ⟨line, if ended then eol.text else [], wroteHeader, by rw [one], ?_⟩
      cases ended with
      | true => exact .inr ⟨[], (List.append_nil _).symm, .done⟩
      | false => exact .inl ⟨rfl, rfl⟩
    | cons row rows =>
      have sheet := writtenSheet_of_lines eol ended wroteRows (by simp)
      obtain ⟨first, others, _, _, rfl⟩ := Traverse.mapM_cons_ok wroteRows
      have split : join eol.text (line :: first :: others) =
        line ++ (eol.text ++ join eol.text (first :: others)) := by
        simp [join, List.intercalate]
      exact ⟨line, _, wroteHeader, by rw [split, List.append_assoc, List.append_assoc], .inr ⟨_, rfl, sheet⟩⟩

/-- Records read up to an empty last line give what all of them do. -/
theorem takeRecords_blank {records blank : List (List Text)} {t : Taken}
    (small : blank = [] ∨ ended = false ∧ blank = [[[]]]) :
    (records ++ blank).zipIdx.foldl takeRecord t = records.zipIdx.foldl takeRecord t := by
  rcases small with rfl | ⟨_, rfl⟩
  · rw [List.append_nil]
  · rw [List.zipIdx_append, List.foldl_append, List.zipIdx_singleton, List.foldl_cons, List.foldl_nil]
    exact takeRecord_blank rfl

/-- The table of a sheet by commas. -/
theorem tableOf_sheet {header : List Text} {rows : List (List Text)}
    (sheet : WrittenSheet eol ended source (header :: rows))
    (filled : (header.map trim).any (· ≠ []) = true) :
    tableOf .comma source = {
      delimiter := .comma
      header := header.map trim
      rows := (keptRows rows 2).map fun r => padded header.length r.1
      rowNumbers := (keptRows rows 2).map Prod.snd
      problems := wideProblems header.length (keptRows rows 2) ++
        unreadableProblem (unreadableRows (header.map trim)
        ((keptRows rows 2).map fun r => padded header.length r.1) ((keptRows rows 2).map Prod.snd)) } := by
  obtain ⟨closed, blank, small, records⟩ := exists_readSheet (r := .start) sheet rfl rfl rfl rfl
  have all : (readRecords source .comma).records ++ blank = header :: rows := records
  have taken : (readRecords source .comma).records.zipIdx.foldl takeRecord
    { header := none, rows := [], rowNumbers := [], problems := [] } =
      { header := some (header.map trim)
        rows := (keptRows rows 2).map fun r => padded header.length r.1
        rowNumbers := (keptRows rows 2).map Prod.snd
        problems := wideProblems header.length (keptRows rows 2) } := by
    rw [← takeRecords_blank small, all, List.zipIdx_cons, List.foldl_cons,
      takeRecord_header filled rfl, takeRecords_rows rfl]
    simp
  simp only [tableOf, readRecords_closed closed, Option.toList_none, List.map_nil, taken, Option.getD_some]

/-- The header is one of the records, where there is one. -/
theorem header_takeRecords {records : List (List Text)} {t : Taken} {i : Nat} {header : List Text}
    (has : ((records.zipIdx i).foldl takeRecord t).header = some header) :
    t.header = some header ∨ ∃ record ∈ records, header = record.map trim := by
  induction records generalizing t i with
  | nil => exact .inl has
  | cons record records ih =>
    rw [List.zipIdx_cons, List.foldl_cons] at has
    rcases ih has with before | ⟨other, member, same⟩
    · unfold takeRecord at before
      dsimp only at before
      split at before
      · exact .inl before
      · split at before
        · exact .inr ⟨record, List.mem_cons_self, (Option.some.inj before).symm⟩
        · exact .inl before
    · exact .inr ⟨other, List.mem_cons_of_mem _ member, same⟩

theorem readRow_header (head : TableHeader header) : readRow header = header.map readBack := by
  refine if_neg fun none_ => ?_
  have two := head.two
  rw [none_] at two
  simp at two

theorem TableHeader.any (head : TableHeader header) : ((readRow header).map trim).any (· ≠ []) = true := by
  obtain ⟨i, _, c, at_, some_⟩ := head.filled
  rw [readRow_header head, List.map_map]
  refine List.any_eq_true.mpr ⟨trim (readBack c), List.mem_map_of_mem (List.mem_of_getElem? at_), ?_⟩
  simpa using some_

theorem TableHeader.apart (head : TableHeader header) {d : TableDelimiter} (other : d ≠ .comma) :
    ∀ v ∈ readRow header, ∀ c ∈ v, c ≠ d.unit := by
  intro v member c inside
  rw [readRow_header head] at member
  obtain ⟨cell, held, rfl⟩ := List.mem_map.mp member
  obtain ⟨notTab, notSemicolon, notPipe⟩ := head.free cell held c inside
  cases d with
  | comma => exact absurd rfl other
  | tab => exact notTab
  | semicolon => exact notSemicolon
  | pipe => exact notPipe

/-- A sheet whose text doesn't begin like a line naming the delimiter is read back. -/
theorem readsBack_of_unnamed (head : TableHeader header) (wroteHeader : csvRow header = .ok line)
    (unnamed : SEP_LINE (dropMark (marked mark (line ++ eol.text))) = none)
    (wrote : sheetText eol ended (header :: rows) = .ok source) :
    ReadsBack header rows (parseTable (marked mark source)) := by
  obtain ⟨line', tail, wroteLine, rfl, ends⟩ := exists_sheet wrote
  cases Except.ok.inj (wroteHeader.symm.trans wroteLine)
  obtain ⟨body, vs, row, same, inside, drops⟩ := exists_body (writtenRow wroteHeader) mark
  have tailHead : tail.head? ≠ some BYTE_ORDER_MARK := by
    rcases ends with ⟨rfl, _⟩ | ⟨more, rfl, _⟩
    · simp
    · exact (eol_head eol _).2
  rw [drops _ (eolText_head eol)] at unnamed
  have free : SEP_LINE (body ++ tail) = none := by
    rcases ends with ⟨rfl, _⟩ | ⟨more, rfl, _⟩
    · rw [List.append_nil]
      exact exec_of_append unnamed
    · rw [← List.append_assoc]
      refine exec_append ⟨unit '\n', ?_, by decide⟩ unnamed
      cases eol <;> simp [LineEnd.text, CRLF]
  obtain ⟨broken, sheet⟩ : ∃ broken, WrittenSheet eol broken (body ++ tail) (vs :: rows.map readRow) := by
    rcases ends with ⟨rfl, rfl⟩ | ⟨more, rfl, rest⟩
    · rw [List.append_nil]
      exact ⟨false, .open_ row⟩
    · exact ⟨ended, .more row rest⟩
  have count : vs.length = header.length := by
    have lengths := congrArg List.length same
    rwa [List.length_map, List.length_map, readRow_header head, List.length_map] at lengths
  have detected : detectDelimiter (body ++ tail) = .comma := by
    refine detectDelimiter_comma fun d other =>
      widths_other row (by rw [count]; exact head.two) (fun v' member c held => ?_) other ?_
    · obtain ⟨v, member', sub⟩ := inside v' member
      exact head.apart other v member' c (sub held)
    · rcases ends with ⟨rfl, _⟩ | ⟨more, rfl, _⟩
      · exact .inl rfl
      · exact .inr ⟨eol, more, rfl⟩
  have parsed : parseTable (marked mark (line ++ tail)) = tableOf .comma (body ++ tail) := by
    simp only [parseTable, drops tail tailHead, free, detected]
  rw [parsed, tableOf_sheet sheet (by rw [same]; exact head.any), count, same]
  refine ⟨rfl, ?_, rfl, rfl, rfl⟩
  show (readRow header).map trim = _
  rw [readRow_header head, List.map_map]
  rfl

/-- A header's line taken as one naming the delimiter is not read back. -/
theorem unnamed_of_readsBack (head : TableHeader header) (wroteHeader : csvRow header = .ok line)
    (reads : ∀ rows ended source, sheetText eol
      ended (header :: rows) = .ok source → ReadsBack header rows (parseTable (marked mark source))) :
    SEP_LINE (dropMark (marked mark (line ++ eol.text))) = none := by
  by_contra some_
  obtain ⟨⟨named, rest⟩, found⟩ := Option.ne_none_iff_exists'.mp some_
  have wrote : sheetText eol true [header] = .ok (line ++ eol.text) := by
    have one : join eol.text [line] = line := by simp [join, List.intercalate]
    simp [sheetText, List.mapM_cons, wroteHeader, bind, Except.bind, pure, Except.pure, one]
  have back := reads [] true _ wrote
  obtain ⟨d, parsed⟩ : ∃ d, parseTable (marked mark (line ++ eol.text)) = tableOf d rest := by
    unfold parseTable
    simp only [found]
    exact ⟨_, rfl⟩
  rw [parsed] at back
  have byComma : d = .comma := back.delimiter
  subst byComma
  have columns : (tableOf .comma rest).header = (readRow header).map trim := by
    rw [back.header, readRow_header head, List.map_map]
    rfl
  -- the header comes from a record of what is left, which weighs less than the header's line
  have less : weight rest < weight line := by
    obtain ⟨body, vs, row, same, _, drops⟩ := exists_body (writtenRow wroteHeader) mark
    rw [drops _ (eolText_head eol)] at found
    have shorter := weight_sepLine (sepLine_of_exec found)
    have ending : weight eol.text = 0 := by cases eol <;> decide
    have bodyWeight := weight_writtenRow row
    have lineWeight := weight_writtenRow (writtenRow wroteHeader)
    rw [← rowWeight_trim, same, rowWeight_trim] at bodyWeight
    rw [weight_append] at shorter
    omega
  have record :
    ∃ record ∈ (readRecords rest .comma).records, (readRow header).map trim = record.map trim := by
    unfold tableOf at columns
    dsimp only at columns
    cases held : ((readRecords rest .comma).records.zipIdx.foldl takeRecord {
      header := none, rows := [], rowNumbers := [], problems :=
        (readRecords rest .comma).unclosedAt.toList.map fun row =>
          text "A quote opened in row " ++ decimal row ++ text " is never closed." }).header with
    | none =>
      rw [held] at columns
      have any := head.any
      rw [← columns] at any
      cases any
    | some taken =>
      rw [held] at columns
      rcases header_takeRecords held with none_ | ⟨record, member, same⟩
      · cases none_
      · exact ⟨record, member, columns.symm.trans same⟩
  obtain ⟨record, member, same⟩ := record
  have most := weight_record member
  have lineWeight := weight_writtenRow (writtenRow wroteHeader)
  rw [← rowWeight_trim, same, rowWeight_trim] at lineWeight
  omega

end

/-- A table is read back as it was written, with any rows, just where its header's line doesn't
begin like a line naming the delimiter. -/
theorem table_roundTrip_iff (header : List Cell) (mark : Bool) (eol : LineEnd) (line : Text)
    (head : TableHeader header)
    (wrote : csvRow header = .ok line) :
    (∀ rows ended source, sheetText eol ended (header :: rows) = .ok source →
      ReadsBack header rows (parseTable (marked mark source))) ↔
      SEP_LINE (dropMark (marked mark (line ++ eol.text))) = none :=
  ⟨unnamed_of_readsBack head wrote, fun unnamed _ _ _ wroteSheet =>
    readsBack_of_unnamed head wrote unnamed wroteSheet⟩

theorem tableHeader_of_cells {header : List Cell} {c : Cell} (two : 2 ≤ header.length)
    (second : header[1]? = some c)
    (filled : trim (readBack c) ≠ [])
    (free : (header.all fun c => (readBack c).all fun x =>
      x ≠ unit '\t' ∧ x ≠ unit ';' ∧ x ≠ unit '|') = true) : TableHeader header where
  two := two
  filled := ⟨1, by omega, c, second, filled⟩
  free cell member x inside :=
    of_decide_eq_true (List.all_eq_true.mp (List.all_eq_true.mp free cell member) x inside)

def nameColumns : List Cell := [.value (text "First"), .value (text "Last, or only")]

def nameRows : List (List Cell) :=
  [[.value (text " Jane"), .value (text "=1+1")], [.empty, .value (text "  ")],
    [.value (text "x"), .exact (text "y\n"), .value (text "z")]]

/-- A blank row, a row too wide, a formula and a quoted line break. -/
theorem table_roundTrip_names : ReadsBack nameColumns nameRows
    (parseTable (marked true (text "First,\"Last, or only\"\n Jane,'=1+1\n,  \nx,\"y\n\",z"))) := by
  have head : TableHeader nameColumns := tableHeader_of_cells (by decide) rfl (by decide) (by decide)
  exact (table_roundTrip_iff nameColumns true .lf (text "First,\"Last, or only\"") head
    (by decide)).mpr (by decide) nameRows false _ (by decide)

/-- A header whose second cell begins with a line break. -/
def sepColumns : List Cell := [.value (text "sep="), .value (text "\nfoo")]

/-- Its line's first part is taken for a line naming the comma, and cut off. -/
theorem sep_columns_cut :
    TableHeader sepColumns ∧ sheetText .crlf true
      [sepColumns, [.value (text "1"), .value (text "2")]] = .ok (text "sep=,\"\nfoo\"\r\n1,2\r\n") ∧
      (parseTable (text "sep=,\"\nfoo\"\r\n1,2\r\n")).header = [text "foo\""] ∧
      ¬ReadsBack sepColumns [[.value (text "1"), .value (text "2")]]
      (parseTable (marked false (text "sep=,\"\nfoo\"\r\n1,2\r\n"))) := by
  refine ⟨tableHeader_of_cells (by decide) rfl (by decide) (by decide), by decide, by decide, fun back => ?_⟩
  have columns := congrArg List.length back.header
  revert columns
  decide

end OpenAduc.Csv
