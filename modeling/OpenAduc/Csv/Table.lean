import OpenAduc.Csv.Codec

namespace OpenAduc.Csv
open Naming

/-- A table pasted from a spreadsheet or read from a CSV file: a header row, then data rows,
each as long as the header, its cells trimmed. -/
structure ParsedTable where
  delimiter : TableDelimiter
  header : List Text
  rows : List (List Text)
  /-- Each row's number as the spreadsheet shows it, the header being row 1. -/
  rowNumbers : List Nat
  /-- What makes the table unreadable as it is. -/
  problems : List Text
  deriving DecidableEq

def TABLE_DELIMITERS : List TableDelimiter := [.tab, .comma, .semicolon, .pipe]

def isBlank (cell : Text) : Bool := trim cell = []

/-- Cells in a record, not counting empty ones at its end. -/
def widthOf (record : List Text) : Nat := (record.rdropWhile isBlank).length

/-- The widths of the records that aren't blank. -/
def widthsOf (source : Text) (delimiter : TableDelimiter) : List Nat :=
  ((readRecords source delimiter).records.map widthOf).filter (0 < ·)

structure Scored where
  delimiter : TableDelimiter
  score : Nat

/-- The better of the best delimiter so far and another. -/
def better (source : Text) (best : Option Scored) (delimiter : TableDelimiter) : Option Scored :=
  let widths := widthsOf source delimiter
  let header := widths.head?.getD 0
  if header < 2 then best
  else
    let score := (widths.tail.filter (· = header)).length
    match best with
    | none => some { delimiter, score }
    | some b => if b.score < score then some { delimiter, score } else some b

/-- The delimiter that reads the most rows as wide as the header row, the header being at
least two columns wide; on a tie the first. -/
def detectDelimiter (source : Text) : TableDelimiter :=
  ((TABLE_DELIMITERS.foldl (better source) none).map (·.delimiter)).getD .comma

def isLineBreak (c : UInt16) : Bool := c = unit '\r' ∨ c = unit '\n'

/-- What `.` doesn't match. -/
def isLineTerminator (c : UInt16) : Bool := isLineBreak c || c = 0x2028 || c = 0x2029

/-- `"?`. -/
def dropQuote (t : Text) : Text := if t.head? = some (unit '"') then t.tail else t

/-- `(\r\n|\r|\n)`, and what follows it. -/
def dropLineBreak : Text → Option Text
  | [] => none
  | c :: rest =>
    if c = unit '\r' then some (if rest.head? = some (unit '\n') then rest.tail else rest)
    else if c = unit '\n' then some rest
    else none

/-- `exec`: the delimiter that a first line names, as spreadsheets write and honour it, and what
follows the line. -/
def SEP_LINE (source : Text) : Option (UInt16 × Text) :=
  let line := dropQuote source
  if (line.take 4).map lowerUnit = text "sep=" then
    match line.drop 4 with
    | [] => none
    | c :: rest =>
      if isLineTerminator c then none
      else (dropLineBreak ((dropQuote rest).dropWhile fun c => c = unit ' ' ∨ c = unit '\t')).map
        fun rest => (c, rest)
  else none

def BYTE_ORDER_MARK : UInt16 := 0xfeff

/-- `replace(/^\uFEFF/, '')`. -/
def dropMark (source : Text) : Text := if source.head? = some BYTE_ORDER_MARK then source.tail else source

/-- What the records so far give: the header, once one isn't blank, and the rows. -/
structure Taken where
  header : Option (List Text)
  rows : List (List Text)
  rowNumbers : List Nat
  problems : List Text

def tooWide (number cells width : Nat) : Text :=
  text "Row " ++ decimal number ++ text " has " ++ decimal cells ++
    text " cells but the header row has " ++ decimal width ++
    text ". Check its quotes and separators."

/-- `Array.from({ length: width }, (_, k) => cells[k] ?? '')`. -/
def fitTo (width : Nat) (cells : List Text) : List Text := (List.range width).map fun k => (cells[k]?).getD []

/-- The record at an index counted from 0. -/
def takeRecord (t : Taken) (record : List Text × Nat) : Taken :=
  let cells := record.1.map trim
  if cells.all (· = []) then t
  else match t.header with
    | none => { t with header := some cells }
    | some header =>
      { t with
        rows := t.rows ++ [fitTo header.length cells]
        rowNumbers := t.rowNumbers ++ [record.2 + 1]
        problems := t.problems ++
          if (cells.drop header.length).any (· ≠ []) then
            [tooWide (record.2 + 1) cells.length header.length] else [] }

/-- The character that stands for bytes that couldn't be read. -/
def REPLACEMENT : UInt16 := 0xfffd

def unreadableRows (header : List Text) (rows : List (List Text)) (rowNumbers : List Nat) : List Nat :=
  (if header.any (·.contains REPLACEMENT) then [1] else []) ++
    ((rows.zip rowNumbers).filter fun r => r.1.any (·.contains REPLACEMENT)).map Prod.snd

def unreadableProblem (unreadable : List Nat) : List Text :=
  if unreadable = [] then []
  else
    let place := match unreadable with
      | [number] => text "Row " ++ decimal number ++ text " has"
      | _ => text "Rows " ++ join (text ", ") ((unreadable.take 5).map decimal) ++
          (if 5 < unreadable.length then text ", …" else []) ++ text " have"
    [place ++ text
      " characters that couldn’t be read (shown as \uFFFD). Save the sheet as “CSV UTF-8” and use that file."]

/-- The table of a source without its mark and its line naming the delimiter. -/
def tableOf (delimiter : TableDelimiter) (source : Text) : ParsedTable :=
  let read := readRecords source delimiter
  let unclosed := read.unclosedAt.toList.map fun row =>
    text "A quote opened in row " ++ decimal row ++ text " is never closed."
  let taken := read.records.zipIdx.foldl takeRecord
    { header := none, rows := [], rowNumbers := [], problems := unclosed }
  let header := taken.header.getD []
  { delimiter, header, rows := taken.rows, rowNumbers := taken.rowNumbers,
    problems := taken.problems ++ unreadableProblem (unreadableRows header taken.rows taken.rowNumbers) }

def parseTable (source : Text) : ParsedTable :=
  let source := dropMark source
  match SEP_LINE source with
  | none => tableOf (detectDelimiter source) source
  | some (named, rest) =>
    tableOf ((TABLE_DELIMITERS.find? fun d => d.unit = named).getD (detectDelimiter rest)) rest

end OpenAduc.Csv
