import OpenAduc.ImportRows.Run
import OpenAduc.Lib.Transition

namespace OpenAduc.ImportRows
open BulkJobs (RowOutcome GroupChange)

/-- What is stored of a row once its run ends: what it came to, nothing where it threw, or all
as it was where it is only put back. -/
def Row.recorded (row : Row) : Except Thrown (RowOutcome ImportRowProgress) → Row
  | .ok outcome => { row with after := outcome.after }
  | .error (.unavailable false) => row
  | .error _ => { row with after := none }

/-- A row, its run under way with the exchanges so far, and what its runs made members of: by
account and group. -/
structure RowState where
  row : Row
  running : Option (List Said × Asking (RowOutcome ImportRowProgress))
  gained : List (String × String)

inductive RowAction
  | start (correlationId : Option String)
  /-- The question is answered; `landed` is whether an add that isn't said to have been made was. -/
  | answer (answers : ∀ q : Question, Except Thrown q.Answer) (landed : Bool)
  /-- The process stops, or the row's recording fails. -/
  | stop (landed : Bool)
  | record

/-- An add said to have made a member. -/
def Said.adds : Said → List (String × String)
  | ⟨.writeMembership .add user group, .ok result⟩ =>
    if result.ok = true ∧ result.isMember ≠ some true then [(user, group.id)] else []
  | _ => []

/-- An add in flight, of which nothing is said. -/
def Question.adding : Question → List (String × String)
  | .writeMembership .add user group => [(user, group.id)]
  | _ => []

/-- What an exchange gains the account: what is said, or was made though nothing says so. -/
def Said.gains (said : Said) (landed : Bool) : List (String × String) :=
  if said.adds = [] ∧ landed = true then said.question.adding else said.adds

/-- What is added when the process stops before the answer. -/
def inFlight (landed : Bool) : Asking (RowOutcome ImportRowProgress) → List (String × String)
  | .ask q _ => if landed then q.adding else []
  | .done _ => []

section
variable (lower : Lower)

def RowState.step (s : RowState) : RowAction → Option RowState
  | .start correlationId =>
    if s.running.isSome then none
    else
      let row := { s.row with attempts := s.row.attempts + 1 }
      some { s with row := row, running := some ([], runImportRow lower row correlationId) }
  | .answer answers landed =>
    match s.running with
    | some (past, .ask q next) =>
      let said : Said := ⟨q, answers q⟩
      some { s with running := some (past ++ [said], next (answers q)), gained :=
        s.gained ++ said.gains landed }
    | _ => none
  | .stop landed =>
    match s.running with
    | some (_, m) => some { s with running := none, gained := s.gained ++ inFlight landed m }
    | none => none
  | .record =>
    match s.running with
    | some (_, .done result) => some { s with row := s.row.recorded result, running := none }
    | _ => none

/-- Every order of runs, answers and stops of one row. -/
def rowRuns (id : Nat) (input : RowInput) : Transition.System RowState RowAction where
  init s := s = { row := { id, attempts := 0, input, after := none }, running := none, gained := [] }
  step := RowState.step lower

end

end OpenAduc.ImportRows
