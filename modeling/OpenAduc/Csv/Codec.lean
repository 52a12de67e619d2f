import OpenAduc.Naming.Text

namespace OpenAduc.Csv
open Naming

/-- `FORMULA_START`'s characters: a spreadsheet runs a cell that starts with one as a formula. -/
def isFormulaStart (c : UInt16) : Bool := c ∈ (text "=+-@\t\r")

/-- Whether a spreadsheet would run this as a formula. -/
def startsLikeFormula (value : Text) : Bool := value.head?.any isFormulaStart

/-- A cell to write: nothing (null or undefined), a value by its text, or a text that must stay as it is. -/
inductive Cell
  | empty
  | value (s : Text)
  | exact (s : Text)
  deriving DecidableEq

def doubleQuotes (s : Text) : Text := s.flatMap fun c => if c = unit '"' then [unit '"', unit '"'] else [c]

def quote (s : Text) : Text := [unit '"'] ++ doubleQuotes s ++ [unit '"']

def APOSTROPHE : UInt16 := 0x27

/-- Formula-like text made plain. -/
def neutralise (s : Text) : Text := if startsLikeFormula s then APOSTROPHE :: s else s

def needsQuotes (c : UInt16) : Bool := c ∈ (text "\",\r\n")

/-- One RFC 4180 cell: formula-like text neutralised, then quoted when it contains a quote, comma or
newline. -/
def csvCell (value : Text) : Text :=
  let s := neutralise value
  if s.any needsQuotes then quote s else s

/-- A cell holding exactly this, always quoted and never neutralised. -/
def csvExactCell (value : Text) : Except Text Text :=
  if startsLikeFormula value then .error (text "a value written exactly can’t start like a formula")
    else .ok (quote value)

def cellText : Cell → Except Text Text
  | .empty => .ok []
  | .value s => .ok (csvCell s)
  | .exact s => csvExactCell s

/-- A row of cells. -/
def csvRow (cells : List Cell) : Except Text Text := do
  return join (text ",") (← cells.mapM cellText)

inductive TableDelimiter
  | tab
  | comma
  | semicolon
  | pipe
  deriving DecidableEq, Repr

def TableDelimiter.unit : TableDelimiter → UInt16
  | .tab => Naming.unit '\t'
  | .comma => Naming.unit ','
  | .semicolon => Naming.unit ';'
  | .pipe => Naming.unit '|'

/-- What has been read of a table, and where in it the reader is. -/
structure Reader where
  records : List (List Text)
  record : List Text
  cell : Text
  quoted : Bool
  quoteStart : Nat
  cellStart : Bool
  deriving DecidableEq

namespace Reader

def start : Reader where
  records := []
  record := []
  cell := []
  quoted := false
  quoteStart := 0
  cellStart := true

def endCell (r : Reader) : Reader := { r with record := r.record ++ [r.cell], cell := [], cellStart := true }

def endRecord (r : Reader) : Reader :=
  let r := r.endCell
  { r with records := r.records ++ [r.record], record := [] }

def push (r : Reader) (ch : UInt16) : Reader := { r with cell := r.cell ++ [ch] }

/-- One character, and whether the next one is passed over with it. -/
def take (delimiter : TableDelimiter) (r : Reader) (ch : UInt16) (next : Option UInt16) : Reader × Bool :=
  if r.quoted then
    if ch ≠ unit '"' then (r.push ch, false)
    else if next = some (unit '"') then (r.push (unit '"'), true)
    else ({ r with quoted := false }, false)
  else if ch = unit '"' ∧ r.cellStart then
    ({ r with quoted := true, quoteStart := r.records.length + 1, cellStart := false }, false)
  else if ch = delimiter.unit then (r.endCell, false)
  else if ch = unit '\r' ∨ ch = unit '\n' then (r.endRecord, ch = unit '\r' ∧ next = some (unit '\n'))
  else ({ r.push ch with cellStart := false }, false)

/-- The characters in order; `passed` is whether the first was passed over with the one before it. -/
def readChars (delimiter : TableDelimiter) : Bool → Reader → Text → Reader
  | _, r, [] => r
  | true, r, _ :: rest => readChars delimiter false r rest
  | false, r, ch :: rest =>
    let (r, passes) := r.take delimiter ch rest.head?
    readChars delimiter passes r rest

theorem readChars_cons {delimiter : TableDelimiter} {r : Reader} {ch : UInt16} {rest : Text} :
    r.readChars delimiter false (ch :: rest) =
      (r.take delimiter ch rest.head?).1.readChars delimiter (r.take delimiter ch rest.head?).2 rest := rfl

@[simp] theorem readChars_passed {delimiter : TableDelimiter} {r : Reader} {ch : UInt16} {rest : Text} :
    r.readChars delimiter true (ch :: rest) = r.readChars delimiter false rest := rfl

end Reader

structure Records where
  records : List (List Text)
  unclosedAt : Option Nat
  deriving DecidableEq

/-- RFC 4180 records: a cell starting with a quote runs to its closing quote, "" inside being one. -/
def readRecords (source : Text) (delimiter : TableDelimiter) : Records :=
  let r := Reader.start.readChars delimiter false source
  let last := if r.cell ≠ [] ∨ r.record ≠ [] ∨ r.quoted then r.endRecord else r
  { records := last.records, unclosedAt := if r.quoted then some r.quoteStart else none }

end OpenAduc.Csv
