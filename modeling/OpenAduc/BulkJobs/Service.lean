import OpenAduc.Lib.Transition
import OpenAduc.BulkJobs.Store

namespace OpenAduc.BulkJobs

/-- What runs a job's rows: its action's handler, or what puts a reverted
job's rows back. `Env` is everything a row's run reads or is answered. -/
abbrev Runner (Input Snap Env : Type) :=
  JobRecord → RowRecord Input Snap → Env → RowResult Snap

def rowConcurrency : Nat := 4

/-- Seconds after which a heartbeat is stale. -/
def staleAfter : Nat := 60

namespace State
variable {Input Snap Env : Type} (s : State Input Snap)

/-- Store a job and its rows, numbered in order. -/
def insert (actor : JobActor) (action : BulkJobKind) (reverts : Option JobId)
    (rows : List (BulkJobRowInput Input)) : State Input Snap :=
  { s with
    nextJobId := s.nextJobId + 1
    nextRowId := s.nextRowId + rows.length
    jobs := s.jobs ++
      [{ id := s.nextJobId, actor, action, revertsJobId := reverts, status := .queued,
         pauseReason := none, runToken := none, heartbeatAt := s.now, finishedAt := none }]
    rows := s.rows ++ rows.zipIdx.map fun (row, i) =>
      { id := s.nextRowId + i, jobId := s.nextJobId, ordinal := i, targetId := row.targetId,
        input := row.input, afterOrdinal := row.after, status := .pending, runToken := none,
        attempts := 0, errorCode := none, errorMessage := none, before := none, after := none,
        finishedAt := none }
    unaudited := s.nextJobId :: s.unaudited }

/-- The job's `bulk.create` event is stored. -/
def audited (job : JobId) : Option (State Input Snap) :=
  if job ∈ s.unaudited then some { s with unaudited := s.unaudited.erase job } else none

def discarded (job : JobId) : State Input Snap :=
  { s with
    jobs := Table.delete (fun j => j.id = job) s.jobs
    rows := Table.delete (fun r => r.jobId = job) s.rows
    unaudited := s.unaudited.erase job }

/-- A job that can't be audited is deleted, its rows with it; nothing may still refer to it. -/
def discard (job : JobId) : Option (State Input Snap) :=
  if job ∈ s.unaudited ∧ ∀ j ∈ s.jobs, j.revertsJobId ≠ some job then some (s.discarded job) else none

/-- Store a revert of `seen`, as the request read it: the job it names is
locked, and neither refused nor run again since. -/
def revert (actor : JobActor) (seen : JobRecord) (rows : List (BulkJobRowInput Input)) :
    Option (State Input Snap) := do
  let action ← bulkRevertActions seen.action
  let locked ← s.findJob seen.id
  if s.refusal locked = none ∧ locked.finishedAt = seen.finishedAt ∧
      OneOpenRevert (s.insert actor action (some seen.id) rows).jobs then
    some (s.insert actor action (some seen.id) rows)
  else none

def resumed (actor : JobActor) (job : JobId) : State Input Snap :=
  { s with
    jobs := Table.update (fun j => j.id = job ∧ j.status = .paused)
      (fun j => { j with actor, status := .queued, heartbeatAt := s.now, pauseReason := none }) s.jobs }

/-- Continue a paused job. -/
def resume (actor : JobActor) (job : JobId) : Option (State Input Snap) :=
  if ∃ j ∈ s.jobs, j.id = job ∧ j.status = .paused then some (s.resumed actor job) else none

/-- Which jobs a retry may queue again. -/
def Retriable (job : JobId) (j : JobRecord) : Prop :=
  j.id = job ∧ j.status ∈ [BulkJobStatus.paused, .finished, .cancelled] ∧ s.HasRow job retriedStatuses

instance (job : JobId) : DecidablePred (s.Retriable job) :=
  fun _ => inferInstanceAs (Decidable (_ ∧ _ ∧ _))

def retried (actor : JobActor) (job : JobId) : State Input Snap :=
  { s with
    jobs := Table.update (s.Retriable job)
      (fun j => { j with actor, status := .queued, heartbeatAt := s.now, pauseReason := none,
                         finishedAt := none }) s.jobs
    rows := Table.update (fun r => r.jobId = job ∧ r.status ∈ retriedStatuses)
      (fun r => { r with status := .pending, errorCode := none, errorMessage := none,
                         finishedAt := none }) s.rows }

/-- Run a stopped job's failed and partial rows again, unless another revert
of the job it reverts, or of it, may still write. -/
def retryRows (actor : JobActor) (job : JobId) : Option (State Input Snap) := do
  let record ← s.findJob job
  let reverted := record.revertsJobId.getD record.id
  let _ ← s.findJob reverted
  if s.hasOpenRevert reverted (some job) then none
  else if (∃ j ∈ s.jobs, s.Retriable job j) ∧ OneOpenRevert (s.retried actor job).jobs then
    some (s.retried actor job)
  else none

def cancelled (job : JobId) : State Input Snap :=
  { s with
    jobs := Table.update (fun j => j.id = job ∧ j.status ∈ openStatuses)
      (fun j => { j with status := .cancelled, pauseReason := none, runToken := none,
                         finishedAt := some s.now }) s.jobs
    rows := Table.update (fun r => r.jobId = job ∧ r.status = .pending)
      (fun r => { r with status := .skipped }) s.rows }

/-- Stop a job: rows not yet started are skipped; rows in flight finish. -/
def cancel (job : JobId) : Option (State Input Snap) :=
  if ∃ j ∈ s.jobs, j.id = job ∧ j.status ∈ openStatuses then some (s.cancelled job) else none

/-- The jobs whose run is gone: their heartbeat stopped. -/
def Stale (j : JobRecord) : Prop :=
  j.status ∈ [BulkJobStatus.queued, .running] ∧ j.heartbeatAt + staleAfter < s.now

instance : DecidablePred s.Stale :=
  fun _ => inferInstanceAs (Decidable (_ ∧ _))

/-- Pause the stale jobs; the rows each had in flight are failed next, one job at a time. -/
def recoverStale : State Input Snap :=
  { s with
    jobs := Table.update s.Stale
      (fun j => { j with status := .paused, pauseReason := some .interrupted, runToken := none }) s.jobs
    interrupts := s.interrupts ++ (s.jobs.filter s.Stale).map fun j => (j.id, none) }

/-- The row failed as one its run left in flight. -/
def failedBy (now : Nat) (r : RowRecord Input Snap) : RowRecord Input Snap :=
  { r with
    status := .failed
    errorCode := some .interrupted
    errorMessage := some (failureMessage .interrupted none)
    finishedAt := some now }

def interrupted (job : JobId) (token : Option Token) : State Input Snap :=
  { s with
    rows := Table.update
      (fun r => r.jobId = job ∧ r.status = .running ∧ (token = none ∨ r.runToken = token))
      (failedBy s.now) s.rows
    interrupts := s.interrupts.erase (job, token) }

/-- Fail the rows a run left in flight (any run's, with no token). -/
def interruptRows (job : JobId) (token : Option Token) : Option (State Input Snap) :=
  if (job, token) ∈ s.interrupts then some (s.interrupted job token) else none

/-- The job as its run's claim leaves it. -/
def started (j : JobRecord) : JobRecord :=
  { j with status := .running, runToken := some s.nextToken, heartbeatAt := s.now }

def ran (job : JobId) (record : JobRecord) : State Input Snap :=
  { s with
    nextToken := s.nextToken + 1
    jobs := Table.update (fun j => j.id = job ∧ j.status = .queued) s.started s.jobs
    runs := s.runs ++
      [{ token := s.nextToken, job := s.started record, pause := none, stopping := false,
         workers := List.replicate rowConcurrency .looping }] }

/-- Claim a queued job with a fresh token, and start its workers. -/
def run (job : JobId) : Option (State Input Snap) :=
  (s.jobs.find? fun j => j.id = job ∧ j.status = .queued).map (s.ran job)

/-- A job a run still holds. -/
def Holds (token : Token) (job : JobId) (j : JobRecord) : Prop :=
  j.id = job ∧ j.runToken = some token

instance (token : Token) (job : JobId) : DecidablePred (Holds token job) :=
  fun _ => inferInstanceAs (Decidable (_ ∧ _))

def beaten (run : Run Input Snap) : State Input Snap :=
  { s with
    jobs := Table.update (Holds run.token run.job.id) (fun j => { j with heartbeatAt := s.now }) s.jobs }

def heartbeat (token : Token) : Option (State Input Snap) :=
  (s.findRun token).map s.beaten

def updateRun (token : Token) (set : Run Input Snap → Run Input Snap) : State Input Snap :=
  { s with runs := Table.update (fun r => r.token = token) set s.runs }

/-- Move one of a run's workers on. -/
def setWorker (token : Token) (w : Nat) (worker : Worker Input Snap) : State Input Snap :=
  s.updateRun token fun r => { r with workers := r.workers.set w worker }

def setPause (token : Token) (reason : BulkJobPauseReason) : State Input Snap :=
  s.updateRun token fun r => { r with pause := some reason }

/-- The run with this token and where its worker `w` is. -/
def findWorker (token : Token) (w : Nat) : Option (Run Input Snap × Worker Input Snap) := do
  let run ← s.findRun token
  let worker ← run.workers[w]?
  some (run, worker)

/-- The process is stopping: its workers leave at the head of their loops. -/
def stop (token : Token) : State Input Snap :=
  s.updateRun token fun r => { r with stopping := true }

/-- The head of a worker's loop. -/
def loop (token : Token) (w : Nat) : Option (State Input Snap) :=
  match s.findWorker token w with
  | some (run, .looping) =>
    some (s.setWorker token w (if run.pause.isSome ∨ run.stopping then .done else .credentials))
  | _ => none

/-- A worker learns whether the operator's elevated session still gives their password. -/
def credentials (token : Token) (w : Nat) (elevated : Bool) : Option (State Input Snap) :=
  match s.findWorker token w with
  | some (run, .credentials) =>
    if elevated then some (s.setWorker token w (if run.pause.isSome then .done else .claiming))
    else some ((s.setWorker token w .done).setPause token .stepUpRequired)
  | _ => none

/-- A worker throws outside its row's run: the others stop claiming rows. -/
def workerFails (token : Token) (w : Nat) : Option (State Input Snap) :=
  match s.findWorker token w with
  | some (_, .done) => none
  | some _ => some ((s.setWorker token w .done).setPause token .interrupted)
  | none => none

/-- The pending rows of a job its run may claim: those that wait for no row
still to finish. -/
def Claimable (token : Token) (job : JobId) (r : RowRecord Input Snap) : Prop :=
  r.jobId = job ∧ r.status = .pending ∧
    (∃ j ∈ s.jobs, j.id = job ∧ j.status = .running ∧ j.runToken = some token) ∧
    ¬∃ first ∈ s.rows, first.jobId = job ∧ some first.ordinal = r.afterOrdinal ∧
      first.status ∈ [BulkJobRowStatus.pending, .running]

instance (token : Token) (job : JobId) : DecidablePred (s.Claimable token job) :=
  fun _ => inferInstanceAs (Decidable (_ ∧ _ ∧ _ ∧ _))

/-- The row a claim takes: the first by ordinal, leaving out those other claims have locked. -/
def nextRow (token : Token) (job : JobId) (locked : List RowId) : Option (RowRecord Input Snap) :=
  (s.rows.filter fun r => s.Claimable token job r ∧ r.id ∉ locked).argmin (·.ordinal)

/-- The row as its claim leaves it. -/
def claimed (token : Token) (r : RowRecord Input Snap) : RowRecord Input Snap :=
  { r with status := .running, runToken := some token, attempts := r.attempts + 1 }

def claimedBy (token : Token) (w : Nat) (row : RowRecord Input Snap) : State Input Snap :=
  { s with rows := Table.update (fun r => r.id = row.id) (claimed token) s.rows }.setWorker token w
    (.running (claimed token row))

/-- The next pending row, marked running for this run; none once none are
left, the run lost the job, or those left wait for a row still to finish. -/
def claimRow (token : Token) (w : Nat) (locked : List RowId) : Option (State Input Snap) :=
  match s.findWorker token w with
  | some (run, .claiming) =>
    match s.nextRow token run.job.id locked with
    | none => some (s.setWorker token w .looked)
    | some row => some (s.claimedBy token w row)
  | _ => none

/-- Whether the run still has rows pending. -/
def Waiting (token : Token) (job : JobId) : Prop :=
  ∃ r ∈ s.rows, r.jobId = job ∧ r.status = .pending ∧
    ∃ j ∈ s.jobs, j.id = r.jobId ∧ j.status = .running ∧ j.runToken = some token

instance (token : Token) (job : JobId) : Decidable (s.Waiting token job) :=
  inferInstanceAs (Decidable (∃ _ ∈ _, _))

/-- A worker that claimed nothing waits while rows are pending, and else is done. -/
def waiting (token : Token) (w : Nat) : Option (State Input Snap) :=
  match s.findWorker token w with
  | some (run, .looked) =>
    some (s.setWorker token w (if s.Waiting token run.job.id then .looping else .done))
  | _ => none

/-- What `runRow` makes of how the handler ended: the outcome to record, or
none for a row to put back, and whether the job should pause. -/
def judged : RowResult Snap → Option (RowOutcome Snap) × Bool
  | .returned outcome => (some outcome, outcome.unavailable)
  | .threwUnavailable false => (none, true)
  | .threwUnavailable true =>
    (some (.failed .directoryUnavailable none none false true none none none), true)
  | .threw audited => (some (.failed .internalError none none false audited none none none), false)

/-- Where a worker is once its row's handler ended. -/
def afterRun (row : RowRecord Input Snap) : Option (RowOutcome Snap) → Worker Input Snap
  | some outcome => .recording row outcome
  | none => .resetting row

/-- A row's handler ends; `pause` is told before anything else is awaited. -/
def runRow (runner : Runner Input Snap Env) (token : Token) (w : Nat) (env : Env) :
    Option (State Input Snap) :=
  match s.findWorker token w with
  | some (run, .running row) =>
    let (outcome, pause) := judged (runner run.job row env)
    let moved := s.setWorker token w (afterRun row outcome)
    some (if pause then moved.setPause token .directoryUnavailable else moved)
  | _ => none

/-- The row with its outcome. -/
def recorded (now : Nat) (outcome : RowOutcome Snap) (r : RowRecord Input Snap) : RowRecord Input Snap :=
  { r with
    status := outcome.status
    errorCode := outcome.errorCode
    errorMessage := outcome.errorMessage
    before := outcome.before
    after := outcome.after
    targetId := outcome.targetId.or r.targetId
    finishedAt := some now }

/-- The row put back for the job to continue. -/
def putBack (r : RowRecord Input Snap) : RowRecord Input Snap :=
  { r with status := .pending }

/-- Write a row where it still has this run's token, and let the worker go on. -/
def written (token : Token) (w : Nat) (row : RowRecord Input Snap)
    (set : RowRecord Input Snap → RowRecord Input Snap) : State Input Snap :=
  { s with rows := Table.update (fun r => r.id = row.id ∧ r.runToken = some token) set s.rows }.setWorker
    token w .looping

/-- The last statement of `runRow`: the row's outcome, or the row put back. -/
def record (token : Token) (w : Nat) : Option (State Input Snap) :=
  match s.findWorker token w with
  | some (_, .recording row outcome) => some (s.written token w row (recorded s.now outcome))
  | some (_, .resetting row) => some (s.written token w row putBack)
  | _ => none

@[simp] theorem failedBy_status {now : Nat} {r : RowRecord Input Snap} :
    (failedBy now r).status = .failed := rfl

@[simp] theorem claimed_status {token : Token} {r : RowRecord Input Snap} :
    (claimed token r).status = .running := rfl

@[simp] theorem recorded_status {now : Nat} {outcome : RowOutcome Snap} {r : RowRecord Input Snap} :
    (recorded now outcome r).status = outcome.status := rfl

@[simp] theorem putBack_status {r : RowRecord Input Snap} : (putBack r).status = .pending := rfl

/-- A job a run still holds and runs. -/
def Settles (token : Token) (job : JobId) (j : JobRecord) : Prop :=
  j.id = job ∧ j.runToken = some token ∧ j.status = .running

instance (token : Token) (job : JobId) : DecidablePred (Settles token job) :=
  fun _ => inferInstanceAs (Decidable (_ ∧ _ ∧ _))

/-- The run's process dies, or the run ends. -/
def crash (token : Token) : State Input Snap :=
  { s with runs := Table.delete (fun r => r.token = token) s.runs }

def settledPaused (run : Run Input Snap) (reason : BulkJobPauseReason) : State Input Snap :=
  { s.crash run.token with
    jobs := Table.update (Settles run.token run.job.id)
      (fun j => { j with status := .paused, pauseReason := some reason, runToken := none }) s.jobs
    interrupts := if ∃ j ∈ s.jobs, Settles run.token run.job.id j then
      s.interrupts ++ [(run.job.id, some run.token)] else s.interrupts }

def settledFinished (run : Run Input Snap) : State Input Snap :=
  { s.crash run.token with
    jobs := Table.update (Settles run.token run.job.id)
      (fun j => { j with status := .finished, runToken := none, finishedAt := some s.now }) s.jobs }

/-- Why a run pauses its job, or none for one that finishes it. -/
def pauseOf (run : Run Input Snap) : Option BulkJobPauseReason :=
  run.pause.or (if run.stopping then some .interrupted else none)

/-- End a run, its workers done: pause the job, or finish it when no rows are left. -/
def settle (token : Token) : Option (State Input Snap) := do
  let run ← s.findRun token
  if run.workers.all Worker.isDone then
    match pauseOf run with
    | some reason => some (s.settledPaused run reason)
    | none => some (s.settledFinished run)
  else none

end State

inductive Action (Input Env : Type)
  | tick (seconds : Nat)
  | create (actor : JobActor) (action : BulkJobKind) (rows : List (BulkJobRowInput Input))
  | audited (job : JobId)
  | discard (job : JobId)
  | revert (actor : JobActor) (seen : JobRecord) (rows : List (BulkJobRowInput Input))
  | resume (actor : JobActor) (job : JobId)
  | retry (actor : JobActor) (job : JobId)
  | cancel (job : JobId)
  | recoverStale
  | interruptRows (job : JobId) (token : Option Token)
  | run (job : JobId)
  | heartbeat (token : Token)
  | stop (token : Token)
  | loop (token : Token) (w : Nat)
  | credentials (token : Token) (w : Nat) (elevated : Bool)
  | workerFails (token : Token) (w : Nat)
  | claimRow (token : Token) (w : Nat) (locked : List RowId)
  | waiting (token : Token) (w : Nat)
  | runRow (token : Token) (w : Nat) (env : Env)
  | record (token : Token) (w : Nat)
  | settle (token : Token)
  | crash (token : Token)

variable {Input Snap Env : Type}

def step (runner : Runner Input Snap Env) (s : State Input Snap) :
    Action Input Env → Option (State Input Snap)
  | .tick seconds => some { s with now := s.now + seconds }
  | .create actor action rows => some (s.insert actor action none rows)
  | .audited job => s.audited job
  | .discard job => s.discard job
  | .revert actor seen rows => s.revert actor seen rows
  | .resume actor job => s.resume actor job
  | .retry actor job => s.retryRows actor job
  | .cancel job => s.cancel job
  | .recoverStale => some s.recoverStale
  | .interruptRows job token => s.interruptRows job token
  | .run job => s.run job
  | .heartbeat token => s.heartbeat token
  | .stop token => some (s.stop token)
  | .loop token w => s.loop token w
  | .credentials token w elevated => s.credentials token w elevated
  | .workerFails token w => s.workerFails token w
  | .claimRow token w locked => s.claimRow token w locked
  | .waiting token w => s.waiting token w
  | .runRow token w env => s.runRow runner token w env
  | .record token w => s.record token w
  | .settle token => s.settle token
  | .crash token => some (s.crash token)

/-- The bulk job service: its store starts empty, and every process's steps interleave. -/
def service (runner : Runner Input Snap Env) : Transition.System (State Input Snap) (Action Input Env) where
  init s := s = .empty
  step := step runner

/-- A worker's pass over its next row. -/
def rowPass (token : Token) (w : Nat) (env : Env) : List (Action Input Env) :=
  [.loop token w, .credentials token w true, .claimRow token w [], .runRow token w env, .record token w]

/-- A worker that finds no row left. -/
def leave (token : Token) (w : Nat) : List (Action Input Env) :=
  [.loop token w, .credentials token w true, .claimRow token w [], .waiting token w]

/-- A whole run, its first worker running every row. -/
def wholeRun (job : JobId) (token : Token) (envs : List Env) : List (Action Input Env) :=
  .run job :: envs.flatMap (rowPass token 0) ++ (List.range rowConcurrency).flatMap (leave token) ++
    [.settle token]

/-- A runner that ends each row as it is told. -/
def told : Runner Unit Unit (RowResult Unit) :=
  fun _ _ result => result

def operator : JobActor where
  directoryId := 0
  adminSessionId := "elevated"
  actorUserId := "operator"
  actorDisplayName := none
  actorUsername := "operator"
  sourceIp := none
  userAgent := none
  correlationId := none

def changed : RowResult Unit :=
  .returned (.ok false none (some ()) (some ()) none)

def refused : RowResult Unit :=
  .returned (.failed .permissionDenied none none false true none none none)

end OpenAduc.BulkJobs
