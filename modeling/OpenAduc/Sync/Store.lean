import OpenAduc.Lib.Table
import OpenAduc.Sync.Registry

namespace OpenAduc.Sync

inductive ScheduleKind
  | interval
  | hourly
  | daily
  | weekly
  | monthly
  | cron
  deriving DecidableEq, Repr

/-- `'1'` to `'28'`, or `'last'`. -/
inductive MonthlyDay
  | day (n : Nat)
  | last
  deriving DecidableEq, Repr

inductive TaskStatus
  | running
  | succeeded
  | failed
  deriving DecidableEq, Repr

/-- A record of `directory_sync_tasks`. Times are in milliseconds. -/
structure TaskRecord where
  providerId : Nat
  taskKey : String
  enabled : Bool
  scheduleKind : ScheduleKind
  /-- `none`: the registry's default. -/
  intervalMinutes : Option Int
  anchorAt : Option Int
  monthlyDay : Option MonthlyDay
  cronExpr : Option String
  lastStartedAt : Option Int
  lastFinishedAt : Option Int
  lastStatus : Option TaskStatus
  lastError : Option String
  /-- The time the runners' cursors are texts of. -/
  lastCursor : Option Int
  consecutiveFailures : Nat
  deriving DecidableEq, Repr

inductive Trigger
  | forced
  | cadence
  deriving DecidableEq, Repr

/-- A record of `directory_sync_task_runs`. -/
structure TaskRun where
  id : Nat
  providerId : Nat
  taskKey : SyncTaskKey
  status : TaskStatus
  startedAt : Int
  finishedAt : Option Int
  error : Option String
  trigger : Trigger
  deriving DecidableEq, Repr

/-- A task's row with the registry's default merged in. -/
structure SyncTaskRow where
  taskKey : SyncTaskKey
  scheduleKind : ScheduleKind
  intervalMinutes : Int
  anchorAt : Option Int
  monthlyDay : Option MonthlyDay
  cronExpr : Option String
  lastStartedAt : Option Int
  lastStatus : Option TaskStatus
  deriving DecidableEq, Repr

structure SyncTasks where
  tasks : List TaskRecord
  runs : List TaskRun
  nextRun : Nat
  deriving DecidableEq, Repr

/-- SQL's `max`. -/
def latest : List Int → Option Int
  | [] => none
  | t :: ts =>
    match latest ts with
    | none => some t
    | some u => some (if u < t then t else u)

/-- A row as the seeder inserts it. -/
def TaskRecord.seeded (providerId : Nat) (k : SyncTaskKey) : TaskRecord where
  providerId
  taskKey := k.name
  enabled := true
  scheduleKind := .interval
  intervalMinutes := none
  anchorAt := none
  monthlyDay := none
  cronExpr := none
  lastStartedAt := none
  lastFinishedAt := none
  lastStatus := none
  lastError := none
  lastCursor := none
  consecutiveFailures := 0

def TaskRecord.toRow (r : TaskRecord) (k : SyncTaskKey) : SyncTaskRow where
  taskKey := k
  scheduleKind := r.scheduleKind
  intervalMinutes := r.intervalMinutes.getD (taskRegistry k).defaultIntervalMinutes
  anchorAt := r.anchorAt
  monthlyDay := r.monthlyDay
  cronExpr := r.cronExpr
  lastStartedAt := r.lastStartedAt
  lastStatus := r.lastStatus

/-- The row as the scheduler's tick sees it, where its key is known. -/
def TaskRecord.listed (r : TaskRecord) : Option (Nat × SyncTaskRow) :=
  (knownTaskKey r.taskKey).map fun k => (r.providerId, r.toRow k)

/-- The row of a directory's task. -/
def TaskRecord.Of (r : TaskRecord) (providerId : Nat) (k : SyncTaskKey) : Prop :=
  r.providerId = providerId ∧ r.taskKey = k.name

instance (r : TaskRecord) (providerId : Nat) (k : SyncTaskKey) : Decidable (r.Of providerId k) :=
  inferInstanceAs (Decidable (_ ∧ _))

namespace SyncTasks
variable (s : SyncTasks)

def ensureSeeded (providerId : Nat) (hasEntra : Bool) : SyncTasks :=
  let existing := (s.tasks.filter fun r => r.providerId = providerId).map (·.taskKey)
  { s with
    tasks := s.tasks ++
      ((tasksToSeed hasEntra).filter fun k => !existing.contains k.name).map (TaskRecord.seeded providerId) }

def listAllEnabled : List (Nat × SyncTaskRow) :=
  (s.tasks.filter (·.enabled)).filterMap (·.listed)

/-- Flip a stuck row out of `running`, closing the history rows it left open. -/
def resetStuck (providerId : Nat) (k : SyncTaskKey) (reason : String) (now : Int) : SyncTasks :=
  { s with
    tasks := Table.update (fun r => r.Of providerId k ∧ r.lastStatus = some .running)
      (fun r =>
        { r with lastStatus := some .failed, lastError := some reason, lastFinishedAt := some now }) s.tasks
    runs := Table.update (fun r => r.providerId = providerId ∧ r.taskKey = k ∧ r.status = .running)
      (fun r => { r with status := .failed, error := some reason, finishedAt := some now }) s.runs }

def markStarted (providerId : Nat) (k : SyncTaskKey) (trigger : Trigger) (now : Int) : SyncTasks where
  tasks := Table.update (fun r => r.Of providerId k)
    (fun r => { r with
      lastStartedAt := some now, lastFinishedAt := none, lastStatus := some .running, lastError :=
        none }) s.tasks
  runs := s.runs ++
    [{ id := s.nextRun, providerId, taskKey := k, status := .running, startedAt := now, finishedAt := none,
       error := none, trigger }]
  nextRun := s.nextRun + 1

/-- What a run's end writes: its error where it failed, and a cursor where the runner returned one. -/
structure Finished where
  error : Option String
  cursor : Option (Option Int)
  deriving DecidableEq, Repr

def Finished.status (f : Finished) : TaskStatus :=
  if f.error.isSome then .failed else .succeeded

/-- `runId` is `none` where the run failed before its history row was opened. -/
def markFinished (providerId : Nat) (k : SyncTaskKey) (result : Finished) (runId : Option Nat)
    (now : Int) : SyncTasks :=
  { s with
    tasks := Table.update (fun r => r.Of providerId k)
      (fun r => { r with
        lastFinishedAt := some now
        lastStatus := some result.status
        lastError := result.error
        consecutiveFailures := if result.error.isSome then r.consecutiveFailures + 1 else 0
        lastCursor := result.cursor.getD r.lastCursor }) s.tasks
    runs := Table.update (fun r => some r.id = runId)
      (fun r => { r with status := result.status, finishedAt := some now, error := result.error }) s.runs }

/-- When the last run of the task to succeed started. -/
def lastSuccessfulStartAt (providerId : Nat) (k : SyncTaskKey) : Option Int :=
  latest
    ((s.runs.filter fun r => r.providerId = providerId && r.taskKey = k &&
    r.status = .succeeded).map (·.startedAt))

end SyncTasks
end OpenAduc.Sync
