import OpenAduc.Csv.Reading

namespace OpenAduc.Csv
open Naming

/-- The text of a table: each row and a line break. -/
def csvText (rows : List (List Cell)) : Except Text Text := do
  return (← rows.mapM csvRow).flatMap (· ++ CRLF)

theorem writtenSheet_of_table {rows : List (List Cell)} {lines : List Text}
    (wrote : rows.mapM csvRow = .ok lines) :
    WrittenSheet .crlf true (lines.flatMap (· ++ CRLF)) (rows.map readRow) := by
  induction rows generalizing lines with
  | nil =>
    cases wrote
    exact .done
  | cons row rows ih =>
    obtain ⟨line, more, wroteRow, wroteMore, rfl⟩ := Traverse.mapM_cons_ok wrote
    rw [List.flatMap_cons, List.append_assoc]
    exact .more (writtenRow wroteRow) (ih wroteMore)

theorem not_formula_neutralise (s : Text) : startsLikeFormula (neutralise s) = false := by
  unfold neutralise
  split
  next =>
    show isFormulaStart APOSTROPHE = false
    decide
  next plain => exact eq_false_of_ne_true plain

theorem not_formula_readBack {c : Cell} {t : Text} (wrote : cellText c = .ok t) :
    startsLikeFormula (readBack c) = false := by
  cases c with
  | empty => rfl
  | value s => exact not_formula_neutralise s
  | exact s =>
    simp only [cellText, csvExactCell] at wrote
    split at wrote
    · cases wrote
    next plain => exact eq_false_of_ne_true plain

/-- Reading a written table gives back its rows, and no cell reads as a formula. -/
theorem csv_roundTrip {rows : List (List Cell)} {source : Text} (some_ : ∀ row ∈ rows, row ≠ [])
    (wrote : csvText rows = .ok source) :
    readRecords source .comma = { records := rows.map (·.map readBack), unclosedAt := none } ∧
    ∀ row ∈ rows, ∀ c ∈ row, startsLikeFormula (readBack c) = false := by
  simp only [csvText, bind, Except.bind, pure, Except.pure] at wrote
  split at wrote
  · cases wrote
  next lines ran =>
    cases wrote
    constructor
    · obtain ⟨closed, blank, small, records⟩ :=
        exists_readSheet (r := .start) (writtenSheet_of_table ran) rfl rfl rfl rfl
      have full : blank = [] := small.resolve_right fun open_ => Bool.noConfusion open_.1
      have filled : rows.map readRow = rows.map (·.map readBack) :=
        List.map_congr_left fun row member => if_neg (some_ row member)
      rw [full, List.append_nil, filled] at records
      have read : (readRecords (lines.flatMap (· ++ CRLF)) .comma).records =
        rows.map (·.map readBack) := records
      rw [← read, ← readRecords_closed closed]
    · intro row memberRow c memberCell
      obtain ⟨line, _, wroteRow⟩ := Traverse.exists_output ran row memberRow
      obtain ⟨written, cells, _⟩ := csvRow_ok wroteRow
      obtain ⟨t, _, wroteCell⟩ := Traverse.exists_output cells c memberCell
      exact not_formula_readBack wroteCell

/-- A formula, an exact password with a quote, and a cell with a comma and a line break. -/
theorem csv_roundTrip_sheet :
    let rows := [[Cell.value (text "=1+1"), .exact (text "a\"b")], [.value (text "x,\r\ny"), .empty]]
    ∃ source, csvText rows = .ok source ∧
      readRecords source .comma = { records := rows.map (·.map readBack), unclosedAt := none } := by
  have wrote : csvText [[Cell.value (text "=1+1"), .exact (text "a\"b")], [.value (text "x,\r\ny"), .empty]] =
      .ok (text "'=1+1,\"a\"\"b\"\r\n\"x,\r\ny\",\r\n") := by
    decide
  exact ⟨_, wrote, (csv_roundTrip (by simp) wrote).1⟩

end OpenAduc.Csv
