import Mathlib.Data.List.MinMax
import OpenAduc.Lib.Table
import OpenAduc.BulkJobs.Schema

namespace OpenAduc.BulkJobs

abbrev JobId := Nat
abbrev RowId := Nat
/-- A `run_token`: random in the source, so never one used before. -/
abbrev Token := Nat

/-- The operator a job writes as, and the request that last started it. -/
structure JobActor where
  directoryId : Nat
  adminSessionId : String
  actorUserId : String
  actorDisplayName : Option String
  actorUsername : String
  sourceIp : Option String
  userAgent : Option String
  correlationId : Option String
  deriving DecidableEq, Repr

/-- A record of `bulk_jobs`; `actor` holds the columns `actorColumns` sets. -/
structure JobRecord where
  id : JobId
  actor : JobActor
  action : BulkJobKind
  revertsJobId : Option JobId
  status : BulkJobStatus
  pauseReason : Option BulkJobPauseReason
  runToken : Option Token
  heartbeatAt : Nat
  finishedAt : Option Nat
  deriving DecidableEq, Repr

/-- What a job is of: its action, and the job it reverts. -/
def JobRecord.kind (j : JobRecord) : BulkJobKind × Option JobId :=
  (j.action, j.revertsJobId)

inductive RowErrorCode
  | notFound
  | permissionDenied
  | directoryUnavailable
  | interrupted
  | internalError
  | other (code : String)
  deriving DecidableEq, Repr

/-- What a failed row says to the operator. -/
def failureMessage (code : RowErrorCode) (detail : Option String) : String :=
  let reason := (detail.filter (· ≠ "")).elim "" (": " ++ ·)
  match code with
  | .notFound => "No such user in the directory."
  | .permissionDenied => "The directory refused the change" ++ reason
  | .directoryUnavailable => "No domain controller could be reached."
  | .interrupted => "OpenADUC stopped while changing this account. Check it, then retry."
  | _ => "The change failed" ++ reason

/-- A record of `bulk_job_rows`, its input and its snapshots of the job's own types. -/
structure RowRecord (Input Snap : Type) where
  id : RowId
  jobId : JobId
  ordinal : Nat
  targetId : Option String
  input : Input
  afterOrdinal : Option Nat
  status : BulkJobRowStatus
  runToken : Option Token
  attempts : Nat
  errorCode : Option RowErrorCode
  errorMessage : Option String
  before : Option Snap
  after : Option Snap
  finishedAt : Option Nat
  deriving DecidableEq, Repr

/-- What running a row comes to. -/
inductive RowOutcome (Snap : Type)
  | ok (unchanged : Bool) (reason : Option (RowErrorCode × String)) (before after : Option Snap)
      (targetId : Option String)
  | failed (errorCode : RowErrorCode) (errorMessage message : Option String) (partially audited : Bool)
      (before after : Option Snap) (targetId : Option String)
  deriving DecidableEq, Repr

namespace RowOutcome
variable {Snap : Type}

def status : RowOutcome Snap → BulkJobRowStatus
  | .ok unchanged .. => if unchanged then .skipped else .succeeded
  | .failed _ _ _ partially .. => if partially then .partially else .failed

def errorCode : RowOutcome Snap → Option RowErrorCode
  | .ok _ reason .. => reason.map (·.1)
  | .failed errorCode .. => some errorCode

def errorMessage : RowOutcome Snap → Option String
  | .ok _ reason .. => reason.map (·.2)
  | .failed errorCode detail message .. => some (message.getD (failureMessage errorCode detail))

def before : RowOutcome Snap → Option Snap
  | .ok _ _ before .. => before
  | .failed _ _ _ _ _ before .. => before

def after : RowOutcome Snap → Option Snap
  | .ok _ _ _ after _ => after
  | .failed _ _ _ _ _ _ after _ => after

def targetId : RowOutcome Snap → Option String
  | .ok _ _ _ _ targetId => targetId
  | .failed _ _ _ _ _ _ _ targetId => targetId

/-- A failure because no domain controller answered, which pauses the job. -/
def unavailable : RowOutcome Snap → Bool
  | .failed .directoryUnavailable .. => true
  | _ => false

/-- No outcome leaves a row pending or running. -/
theorem status_settled (outcome : RowOutcome Snap) :
    outcome.status ≠ .pending ∧ outcome.status ≠ .running := by
  cases outcome <;> simp only [status] <;> split <;> simp

end RowOutcome

/-- How a row's handler ends: with an outcome, with a `DirectoryUnavailableError`,
or with another error; `audited` is whether the error was audited. -/
inductive RowResult (Snap : Type)
  | returned (outcome : RowOutcome Snap)
  | threwUnavailable (audited : Bool)
  | threw (audited : Bool)
  deriving DecidableEq, Repr

/-- A thrown error that is recorded as the row's failure. -/
def RowResult.raises {Snap : Type} : RowResult Snap → Bool
  | .returned _ | .threwUnavailable false => false
  | _ => true

/-- Where one of a run's workers is. -/
inductive Worker (Input Snap : Type)
  /-- At the head of its loop. -/
  | looping
  /-- About to be given the operator's write credentials. -/
  | credentials
  /-- Past its checks, about to claim a row. -/
  | claiming
  /-- Claimed nothing; about to ask whether rows are still waiting. -/
  | looked
  | running (row : RowRecord Input Snap)
  /-- Its row's outcome is known and still to be recorded. -/
  | recording (row : RowRecord Input Snap) (outcome : RowOutcome Snap)
  /-- Nothing was written; its row is still to be put back. -/
  | resetting (row : RowRecord Input Snap)
  | done
  deriving DecidableEq, Repr

def Worker.isDone {Input Snap : Type} : Worker Input Snap → Bool
  | .done => true
  | _ => false

/-- A run in some process's memory: `pause` is what its workers were told, `job`
the record as its claim returned it. -/
structure Run (Input Snap : Type) where
  token : Token
  job : JobRecord
  pause : Option BulkJobPauseReason
  stopping : Bool
  workers : List (Worker Input Snap)
  deriving DecidableEq, Repr

/-- What a run claimed, for as long as it is in memory. -/
def Run.claim {Input Snap : Type} (run : Run Input Snap) : Token × JobRecord :=
  (run.token, run.job)

/-- The two tables, the runs under way, and the statements a process has still
to make: `interrupts` the rows of a stopped job still to fail, `unaudited` the
jobs stored whose `bulk.create` event isn't. -/
structure State (Input Snap : Type) where
  now : Nat
  nextJobId : JobId
  nextRowId : RowId
  nextToken : Token
  jobs : List JobRecord
  rows : List (RowRecord Input Snap)
  runs : List (Run Input Snap)
  interrupts : List (JobId × Option Token)
  unaudited : List JobId
  deriving DecidableEq, Repr

/-- One of a job's rows as it is stored; `after` indexes the job's rows. -/
structure BulkJobRowInput (Input : Type) where
  targetId : Option String
  input : Input
  after : Option Nat
  deriving DecidableEq, Repr

/-- A job in these may still write. -/
def openStatuses : List BulkJobStatus :=
  [.queued, .running, .paused]

def stoppedStatuses : List BulkJobStatus :=
  [.finished, .cancelled]

def settledStatuses : List BulkJobRowStatus :=
  [.succeeded, .partially, .failed, .skipped]

/-- The rows a retry runs again. -/
def retriedStatuses : List BulkJobRowStatus :=
  [.failed, .partially]

/-- `bulk_jobs_one_open_revert_uq`. -/
def OneOpenRevert (jobs : List JobRecord) : Prop :=
  ((jobs.filter fun j => j.revertsJobId.isSome ∧ j.status ∈ openStatuses).map (·.revertsJobId)).Nodup

instance (jobs : List JobRecord) : Decidable (OneOpenRevert jobs) :=
  inferInstanceAs (Decidable (List.Nodup _))

namespace State
variable {Input Snap : Type} (s : State Input Snap)

def empty : State Input Snap :=
  { now := 0, nextJobId := 0, nextRowId := 0, nextToken := 0, jobs := [], rows := [], runs := [],
    interrupts := [], unaudited := [] }

def findJob (job : JobId) : Option JobRecord :=
  Table.find JobRecord.id job s.jobs

def findRun (token : Token) : Option (Run Input Snap) :=
  Table.find Run.token token s.runs

/-- Whether some row of the job has one of these statuses. -/
def HasRow (job : JobId) (statuses : List BulkJobRowStatus) : Prop :=
  ∃ r ∈ s.rows, r.jobId = job ∧ r.status ∈ statuses

instance (job : JobId) (statuses : List BulkJobRowStatus) : Decidable (s.HasRow job statuses) :=
  inferInstanceAs (Decidable (∃ _ ∈ _, _))

def counts (job : JobId) : BulkJobCounts :=
  let n status := (s.rows.filter fun r => r.jobId = job ∧ r.status = status).length
  { pending := n .pending, running := n .running, succeeded := n .succeeded,
    partially := n .partially, failed := n .failed, skipped := n .skipped }

/-- The jobs among these with a revert, other than `except`, that may still
write: not stopped, or stopped with rows still running. -/
def withOpenReverts (jobIds : List JobId) (except : Option JobId) : List JobId :=
  (s.jobs.filter fun revert =>
    (revert.status ∈ openStatuses ∨ s.HasRow revert.id [.running]) ∧ except ≠ some revert.id).filterMap
      fun revert => revert.revertsJobId.filter (· ∈ jobIds)

def hasOpenRevert (job : JobId) (except : Option JobId) : Bool :=
  job ∈ s.withOpenReverts [job] except

/-- Why the job can't be reverted now, as `describe` and the open reverts have it. -/
def refusal (job : JobRecord) : Option (RevertRefusalCode × String) :=
  revertRefusal job.action job.revertsJobId.isSome job.status (s.counts job.id)
    (s.hasOpenRevert job.id none)

theorem counts_running_eq_zero {job : JobId} :
    (s.counts job).running = 0 ↔ ¬s.HasRow job [.running] := by
  simp only [counts, List.length_eq_zero_iff, List.filter_eq_nil_iff, HasRow, List.mem_singleton,
    decide_eq_true_eq]
  push Not
  rfl

theorem hasOpenRevert_iff {job : JobId} {except : Option JobId} :
    s.hasOpenRevert job except = true ↔ ∃ revert ∈ s.jobs, revert.revertsJobId = some job ∧
      except ≠ some revert.id ∧ (revert.status ∈ openStatuses ∨ s.HasRow revert.id [.running]) := by
  rw [hasOpenRevert, decide_eq_true_eq, withOpenReverts]
  simp only [List.mem_filterMap, List.mem_filter, decide_eq_true_eq, Option.filter_eq_some_iff,
    List.mem_singleton]
  constructor
  · rintro ⟨revert, ⟨member, writes, other⟩, reverts, _⟩
    exact ⟨revert, member, reverts, other, writes⟩
  · rintro ⟨revert, member, reverts, other, writes⟩
    exact ⟨revert, ⟨member, writes, other⟩, reverts, trivial⟩

end State
end OpenAduc.BulkJobs
