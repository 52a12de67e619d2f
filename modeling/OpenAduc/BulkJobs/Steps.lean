import OpenAduc.BulkJobs.Service

namespace OpenAduc.BulkJobs
variable {Input Snap Env : Type}

/-- What a step does that leaves the two tables alone: it moves a run's
workers, or nothing the tables show. -/
inductive Move (runner : Runner Input Snap Env) (s : State Input Snap) : Action Input Env →
    State Input Snap → Prop
  | ticked {seconds} : Move runner s (.tick seconds) { s with now := s.now + seconds }
  | audited {job} : Move runner s (.audited job) { s with unaudited := s.unaudited.erase job }
  | stopped {token} : Move runner s (.stop token) (s.stop token)
  | crashed {token} : Move runner s (.crash token) (s.crash token)
  | looped {token w run} (at_ : s.findWorker token w = some (run, .looping)) :
      Move runner s (.loop token w)
        (s.setWorker token w (if run.pause.isSome ∨ run.stopping then .done else .credentials))
  | elevated {token w run} (at_ : s.findWorker token w = some (run, .credentials)) :
      Move runner s (.credentials token w true)
        (s.setWorker token w (if run.pause.isSome then .done else .claiming))
  | stepUp {token w run} (at_ : s.findWorker token w = some (run, .credentials)) :
      Move runner s (.credentials token w false) ((s.setWorker token w .done).setPause token .stepUpRequired)
  | failed {token w run worker} (at_ : s.findWorker token w = some (run, worker)) :
      Move runner s (.workerFails token w) ((s.setWorker token w .done).setPause token .interrupted)
  | looked {token w locked run} (at_ : s.findWorker token w = some (run, .claiming))
      (none : s.nextRow token run.job.id locked = none) :
      Move runner s (.claimRow token w locked) (s.setWorker token w .looked)
  | waited {token w run} (at_ : s.findWorker token w = some (run, .looked)) :
      Move runner s (.waiting token w)
        (s.setWorker token w (if s.Waiting token run.job.id then .looping else .done))
  | handled {token w run row env outcome} (at_ : s.findWorker token w = some (run, .running row))
      (judged : State.judged (runner run.job row env) = (outcome, false)) :
      Move runner s (.runRow token w env) (s.setWorker token w (State.afterRun row outcome))
  | unanswered {token w run row env outcome} (at_ : s.findWorker token w = some (run, .running row))
      (judged : State.judged (runner run.job row env) = (outcome, true)) :
      Move runner s (.runRow token w env)
        ((s.setWorker token w (State.afterRun row outcome)).setPause token .directoryUnavailable)

/-- What a step does, guards included. -/
inductive Effect (runner : Runner Input Snap Env) (s : State Input Snap) :
    Action Input Env → State Input Snap → Prop
  | memory {a s'} (move : Move runner s a s') : Effect runner s a s'
  | created {actor action rows} : Effect runner s (.create actor action rows)
    (s.insert actor action none rows)
  | discarded {job} (unlinked : ∀ j ∈ s.jobs, j.revertsJobId ≠ some job) :
      Effect runner s (.discard job) (s.discarded job)
  | reverted {actor seen rows action locked} (reverts : bulkRevertActions seen.action = some action)
      (found : s.findJob seen.id = some locked) (granted : s.refusal locked = none)
      (since : locked.finishedAt = seen.finishedAt)
      (one : OneOpenRevert (s.insert actor action (some seen.id) rows).jobs) :
      Effect runner s (.revert actor seen rows) (s.insert actor action (some seen.id) rows)
  | resumed {actor job} (paused : ∃ j ∈ s.jobs, j.id = job ∧ j.status = .paused) :
      Effect runner s (.resume actor job) (s.resumed actor job)
  | retried {actor job record} (found : s.findJob job = some record)
      (closed : s.hasOpenRevert (record.revertsJobId.getD record.id) (some job) = false)
      (retriable : ∃ j ∈ s.jobs, s.Retriable job j) (one : OneOpenRevert (s.retried actor job).jobs) :
      Effect runner s (.retry actor job) (s.retried actor job)
  | cancelled {job} (opened : ∃ j ∈ s.jobs, j.id = job ∧ j.status ∈ openStatuses) :
      Effect runner s (.cancel job) (s.cancelled job)
  | swept : Effect runner s .recoverStale s.recoverStale
  | interrupted {job token} (asked : (job, token) ∈ s.interrupts) :
      Effect runner s (.interruptRows job token) (s.interrupted job token)
  | ran {job record} (found : record ∈ s.jobs) (named : record.id = job) (queued : record.status = .queued) :
      Effect runner s (.run job) (s.ran job record)
  | beaten {token run} (found : s.findRun token = some run) :
      Effect runner s (.heartbeat token) (s.beaten run)
  | claimed {token w locked run row} (at_ : s.findWorker token w = some (run, .claiming))
      (next : s.nextRow token run.job.id locked = some row) :
      Effect runner s (.claimRow token w locked) (s.claimedBy token w row)
  | recorded {token w run row outcome} (at_ : s.findWorker token w = some (run, .recording row outcome)) :
      Effect runner s (.record token w) (s.written token w row (State.recorded s.now outcome))
  | reset {token w run row} (at_ : s.findWorker token w = some (run, .resetting row)) :
      Effect runner s (.record token w) (s.written token w row State.putBack)
  | paused {token run reason} (found : s.findRun token = some run)
      (ended : run.workers.all Worker.isDone = true) (why : State.pauseOf run = some reason) :
      Effect runner s (.settle token) (s.settledPaused run reason)
  | finished {token run} (found : s.findRun token = some run)
      (ended : run.workers.all Worker.isDone = true) (why : State.pauseOf run = none) :
      Effect runner s (.settle token) (s.settledFinished run)

namespace State
variable {s s' : State Input Snap}

variable (s) in
/-- The row a step puts back, and the token its worker writes it under. -/
def putsBack : Action Input Env → Option (Token × RowRecord Input Snap)
  | .record token w =>
    match s.findWorker token w with
    | some (_, .resetting row) => some (token, row)
    | _ => none
  | _ => none

theorem putsBack_resetting {token : Token} {w : Nat} {run : Run Input Snap} {row : RowRecord Input Snap}
    (at_ : s.findWorker token w = some (run, .resetting row)) :
    (token, row) ∈ s.putsBack (.record token w : Action Input Env) := by
  simp [putsBack, at_]

/-- Moving a run's workers on, or telling it to pause, keeps every run's claim. -/
theorem updateRun_claims {token : Token} {set : Run Input Snap → Run Input Snap}
    (kept : ∀ run, (set run).claim = run.claim) :
    (s.updateRun token set).runs.map Run.claim = s.runs.map Run.claim :=
  Table.map_update fun run _ => kept run

@[simp] theorem setWorker_claims {token : Token} {w : Nat} {worker : Worker Input Snap} :
    (s.setWorker token w worker).runs.map Run.claim = s.runs.map Run.claim :=
  updateRun_claims fun _ => rfl

@[simp] theorem setPause_claims {token : Token} {reason : BulkJobPauseReason} :
    (s.setPause token reason).runs.map Run.claim = s.runs.map Run.claim :=
  updateRun_claims fun _ => rfl

@[simp] theorem stop_claims {token : Token} :
    (s.stop token).runs.map Run.claim = s.runs.map Run.claim :=
  updateRun_claims fun _ => rfl

theorem crash_claims {token : Token} :
    ((s.crash token).runs.map Run.claim).Sublist (s.runs.map Run.claim) :=
  List.filter_sublist.map _

/-- A worker moved on and the run told to pause, in one. -/
theorem setPause_setWorker {token : Token} {w : Nat} {worker : Worker Input Snap}
    {reason : BulkJobPauseReason} :
    (s.setWorker token w worker).setPause token reason =
      s.updateRun token fun r => { r with workers := r.workers.set w worker, pause := some reason } := by
  simp only [setPause, setWorker, updateRun]
  congr 1
  exact Table.update_update fun _ named => named

theorem revert_effect {runner : Runner Input Snap Env} {actor : JobActor} {seen : JobRecord}
    {rows : List (BulkJobRowInput Input)} (taken : s.revert actor seen rows = some s') :
    Effect runner s (.revert actor seen rows) s' := by
  obtain ⟨action, reverts, taken⟩ := Option.bind_eq_some_iff.mp taken
  obtain ⟨locked, found, taken⟩ := Option.bind_eq_some_iff.mp taken
  split at taken
  next guard =>
    cases Option.some.inj taken
    exact .reverted reverts found guard.1 guard.2.1 guard.2.2
  next => cases taken

theorem retryRows_effect {runner : Runner Input Snap Env} {actor : JobActor} {job : JobId}
    (taken : s.retryRows actor job = some s') : Effect runner s (.retry actor job) s' := by
  obtain ⟨record, found, taken⟩ := Option.bind_eq_some_iff.mp taken
  obtain ⟨_, _, taken⟩ := Option.bind_eq_some_iff.mp taken
  split at taken
  next => cases taken
  next closed =>
    split at taken
    next guard =>
      cases Option.some.inj taken
      exact .retried found (by simpa using closed) guard.1 guard.2
    next => cases taken

theorem run_some {job : JobId} (taken : s.run job = some s') :
    ∃ record ∈ s.jobs, record.id = job ∧ record.status = .queued ∧ s' = s.ran job record := by
  obtain ⟨record, found, rfl⟩ := Option.map_eq_some_iff.mp taken
  have named : record.id = job ∧ record.status = .queued := by simpa using List.find?_some found
  exact ⟨record, List.mem_of_find?_eq_some found, named.1, named.2, rfl⟩

theorem loop_move {runner : Runner Input Snap Env} {token : Token} {w : Nat}
    (taken : s.loop token w = some s') :
    Move runner s (.loop token w) s' := by
  unfold loop at taken
  split at taken
  next at_ =>
    cases Option.some.inj taken
    exact .looped at_
  next => cases taken

theorem credentials_move {runner : Runner Input Snap Env} {token : Token} {w : Nat} {elevated : Bool}
    (taken : s.credentials token w elevated = some s') :
    Move runner s (.credentials token w elevated) s' := by
  unfold credentials at taken
  split at taken
  next at_ =>
    cases elevated <;> cases Option.some.inj taken
    · exact .stepUp at_
    · exact .elevated at_
  next => cases taken

theorem workerFails_move {runner : Runner Input Snap Env} {token : Token} {w : Nat}
    (taken : s.workerFails token w = some s') : Move runner s (.workerFails token w) s' := by
  unfold workerFails at taken
  split at taken
  next => cases taken
  next at_ =>
    cases Option.some.inj taken
    exact .failed at_
  next => cases taken

theorem waiting_move {runner : Runner Input Snap Env} {token : Token} {w : Nat}
    (taken : s.waiting token w = some s') :
    Move runner s (.waiting token w) s' := by
  unfold waiting at taken
  split at taken
  next at_ =>
    cases Option.some.inj taken
    exact .waited at_
  next => cases taken

theorem claimRow_effect {runner : Runner Input Snap Env} {token : Token} {w : Nat} {locked : List RowId}
    (taken : s.claimRow token w locked = some s') : Effect runner s (.claimRow token w locked) s' := by
  unfold claimRow at taken
  split at taken
  next run at_ =>
    split at taken
    next none =>
      cases Option.some.inj taken
      exact .memory (.looked at_ none)
    next row next =>
      cases Option.some.inj taken
      exact .claimed at_ next
  next => cases taken

theorem runRow_move {runner : Runner Input Snap Env} {token : Token} {w : Nat} {env : Env}
    (taken : s.runRow runner token w env = some s') : Move runner s (.runRow token w env) s' := by
  unfold runRow at taken
  split at taken
  next run row at_ =>
    rcases judged : State.judged (runner run.job row env) with ⟨outcome, _ | _⟩ <;>
      rw [judged] at taken <;> cases Option.some.inj taken
    · exact .handled at_ judged
    · exact .unanswered at_ judged
  next => cases taken

theorem record_effect {runner : Runner Input Snap Env} {token : Token} {w : Nat}
    (taken : s.record token w = some s') :
    Effect runner s (.record token w) s' := by
  unfold record at taken
  split at taken
  next at_ =>
    cases Option.some.inj taken
    exact .recorded at_
  next at_ =>
    cases Option.some.inj taken
    exact .reset at_
  next => cases taken

theorem settle_effect {runner : Runner Input Snap Env} {token : Token} (taken : s.settle token = some s') :
    Effect runner s (.settle token) s' := by
  obtain ⟨run, found, taken⟩ := Option.bind_eq_some_iff.mp taken
  split at taken
  next ended =>
    split at taken
    next why =>
      cases Option.some.inj taken
      exact .paused found ended why
    next why =>
      cases Option.some.inj taken
      exact .finished found ended why
  next => cases taken

theorem findWorker_some {token : Token} {w : Nat} {run : Run Input Snap} {worker : Worker Input Snap}
    (found : s.findWorker token w = some (run, worker)) :
    s.findRun token = some run ∧ run.workers[w]? = some worker := by
  obtain ⟨other, foundRun, found⟩ := Option.bind_eq_some_iff.mp found
  obtain ⟨_, at_, found⟩ := Option.bind_eq_some_iff.mp found
  cases Option.some.inj found
  exact ⟨foundRun, at_⟩

end State

/-- Every step is one of the effects. -/
theorem effect_of_step {runner : Runner Input Snap Env} {s s' : State Input Snap}
    {a : Action Input Env} (taken : step runner s a = some s') : Effect runner s a s' := by
  cases a with
  | tick =>
    cases Option.some.inj taken
    exact .memory .ticked
  | stop =>
    cases Option.some.inj taken
    exact .memory .stopped
  | crash =>
    cases Option.some.inj taken
    exact .memory .crashed
  | create =>
    cases Option.some.inj taken
    exact .created
  | audited =>
    obtain ⟨_, same⟩ := Option.ite_none_right_eq_some.mp taken
    cases Option.some.inj same
    exact .memory .audited
  | discard =>
    obtain ⟨guard, same⟩ := Option.ite_none_right_eq_some.mp taken
    cases Option.some.inj same
    exact .discarded guard.2
  | revert => exact State.revert_effect taken
  | resume =>
    obtain ⟨paused, same⟩ := Option.ite_none_right_eq_some.mp taken
    cases Option.some.inj same
    exact .resumed paused
  | retry => exact State.retryRows_effect taken
  | cancel =>
    obtain ⟨opened, same⟩ := Option.ite_none_right_eq_some.mp taken
    cases Option.some.inj same
    exact .cancelled opened
  | recoverStale =>
    cases Option.some.inj taken
    exact .swept
  | interruptRows =>
    obtain ⟨asked, same⟩ := Option.ite_none_right_eq_some.mp taken
    cases Option.some.inj same
    exact .interrupted asked
  | run =>
    obtain ⟨record, found, named, queued, rfl⟩ := State.run_some taken
    exact .ran found named queued
  | heartbeat =>
    obtain ⟨run, found, rfl⟩ := Option.map_eq_some_iff.mp taken
    exact .beaten found
  | loop => exact .memory (State.loop_move taken)
  | credentials => exact .memory (State.credentials_move taken)
  | workerFails => exact .memory (State.workerFails_move taken)
  | claimRow => exact State.claimRow_effect taken
  | waiting => exact .memory (State.waiting_move taken)
  | runRow => exact .memory (State.runRow_move taken)
  | record => exact State.record_effect taken
  | settle => exact State.settle_effect taken

/-- What a move keeps: the tables, the ids and tokens given out, and what each run claimed. -/
theorem Move.tables {runner : Runner Input Snap Env} {s s' : State Input Snap} {a : Action Input Env}
    (move : Move runner s a s') : s'.jobs = s.jobs ∧ s'.rows = s.rows ∧ s'.nextJobId = s.nextJobId ∧
      s'.nextRowId = s.nextRowId ∧ s'.nextToken = s.nextToken ∧ s'.interrupts = s.interrupts ∧
      (s'.runs.map Run.claim).Sublist (s.runs.map Run.claim) := by
  cases move
  case crashed => exact ⟨rfl, rfl, rfl, rfl, rfl, rfl, State.crash_claims⟩
  all_goals exact ⟨rfl, rfl, rfl, rfl, rfl, rfl, by simp⟩

theorem nextRow_claimable {s : State Input Snap} {token : Token} {job : JobId} {locked : List RowId}
    {row : RowRecord Input Snap} (next : s.nextRow token job locked = some row) :
    row ∈ s.rows ∧ s.Claimable token job row := by
  have member := List.argmin_mem next
  simp only [List.mem_filter, decide_eq_true_eq] at member
  exact ⟨member.1, member.2.1⟩

/-- The job whose rows a step fails as left in flight, and whose: any run's, with no token. -/
def Action.interrupts : Action Input Env → Option (JobId × Option Token)
  | .interruptRows job token => some (job, token)
  | _ => none

/-- What one step makes of one stored row. -/
inductive RowStep (s : State Input Snap) : Action Input Env → RowRecord Input Snap →
    RowRecord Input Snap → Prop
  | same {a r} : RowStep s a r r
  | retried {actor r} (retriable : ∃ j ∈ s.jobs, s.Retriable r.jobId j)
    (status : r.status ∈ retriedStatuses) :
      RowStep s (.retry actor r.jobId) r
        { r with status := .pending, errorCode := none, errorMessage := none, finishedAt := none }
  | skipped {r} (status : r.status = .pending)
    (opened : ∃ j ∈ s.jobs, j.id = r.jobId ∧ j.status ∈ openStatuses) :
      RowStep s (.cancel r.jobId) r { r with status := .skipped }
  | interrupted {token r} (status : r.status = .running) (theirs : token = none ∨ r.runToken = token)
      (asked : (r.jobId, token) ∈ s.interrupts) :
      RowStep s (.interruptRows r.jobId token) r (State.failedBy s.now r)
  | claimed {token w locked run r} (at_ : s.findWorker token w = some (run, .claiming))
      (claimable : s.Claimable token run.job.id r) :
      RowStep s (.claimRow token w locked) r (State.claimed token r)
  | recorded {token w run row outcome r} (at_ : s.findWorker token w = some (run, .recording row outcome))
      (named : r.id = row.id) (theirs : r.runToken = some token) :
      RowStep s (.record token w) r (State.recorded s.now outcome r)
  | reset {token w run row r} (at_ : s.findWorker token w = some (run, .resetting row))
      (named : r.id = row.id) (theirs : r.runToken = some token) :
      RowStep s (.record token w) r (State.putBack r)

/-- The rows a step stores. -/
def Action.stored : Action Input Env → List (BulkJobRowInput Input)
  | .create _ _ rows | .revert _ _ rows => rows
  | _ => []

/-- The kind of the job a step stores for a bulk action or an import. -/
def Action.creates : Action Input Env → Option (BulkJobKind × Option JobId)
  | .create _ action _ => some (action, none)
  | _ => none

/-- A row just stored, as its input says. -/
structure RowRecord.Fresh (s : State Input Snap) (a : Action Input Env)
    (r : RowRecord Input Snap) : Prop where
  id : s.nextRowId ≤ r.id
  jobId : r.jobId = s.nextJobId
  status : r.status = .pending
  before : r.before = none
  after : r.after = none
  input : ∃ row, a.stored[r.ordinal]? = some row ∧ r.afterOrdinal = row.after ∧ r.targetId = row.targetId ∧
    r.input = row.input

theorem fresh_of_insert {s : State Input Snap} {actor : JobActor} {action : BulkJobKind}
    {reverts : Option JobId} {a : Action Input Env} :
    ∀ r ∈ (s.insert actor action reverts a.stored).rows, r ∈ s.rows ∨ r.Fresh s a := by
  intro r member
  rcases List.mem_append.mp member with old | new
  · exact .inl old
  · obtain ⟨⟨row, i⟩, indexed, rfl⟩ := List.mem_map.mp new
    have stored : a.stored[i]? = some row := List.mk_mem_zipIdx_iff_getElem?.mp indexed
    exact .inr ⟨Nat.le_add_right _ i, rfl, rfl, rfl, rfl, row, stored, rfl, rfl, rfl⟩

/-- Every row after a step was one before it, as the step left it, or is just stored. -/
theorem rowStep_of_effect {runner : Runner Input Snap Env} {s s' : State Input Snap}
    (keyed : Table.Keyed RowRecord.id s.rows) {a : Action Input Env} (effect : Effect runner s a s') :
    ∀ r' ∈ s'.rows, (∃ r ∈ s.rows, RowStep s a r r') ∨ r'.Fresh s a := by
  have same : ∀ r ∈ s.rows, (∃ q ∈ s.rows, RowStep s a q r) ∨ r.Fresh s a :=
    fun r member => .inl ⟨r, member, .same⟩
  cases effect with
  | memory move =>
    rw [move.tables.2.1]
    exact same
  | created => exact fun r member => (fresh_of_insert r member).elim (same r) .inr
  | reverted => exact fun r member => (fresh_of_insert r member).elim (same r) .inr
  | discarded => exact fun r member => same r (Table.mem_delete.mp member).1
  | resumed => exact same
  | retried _ _ retriable =>
    refine Table.forall_update.mpr fun r member => ⟨fun met => .inl ⟨r, member, ?_⟩, fun _ => same r member⟩
    obtain ⟨rfl, status⟩ := met
    exact .retried retriable status
  | cancelled opened =>
    refine Table.forall_update.mpr fun r member => ⟨fun met => .inl ⟨r, member, ?_⟩, fun _ => same r member⟩
    obtain ⟨rfl, status⟩ := met
    exact .skipped status opened
  | swept => exact same
  | interrupted asked =>
    refine Table.forall_update.mpr fun r member => ⟨fun met => .inl ⟨r, member, ?_⟩, fun _ => same r member⟩
    obtain ⟨rfl, status, theirs⟩ := met
    exact .interrupted status theirs asked
  | ran => exact same
  | beaten => exact same
  | @claimed _ _ _ _ row at_ next =>
    refine Table.forall_update.mpr fun r member => ⟨fun named => .inl ⟨r, member, ?_⟩, fun _ => same r member⟩
    have ⟨memberRow, claimable⟩ := nextRow_claimable next
    cases keyed.eq_of_key member memberRow named
    exact .claimed at_ claimable
  | recorded at_ =>
    exact Table.forall_update.mpr fun r member =>
      ⟨fun met => .inl ⟨r, member, .recorded at_ met.1 met.2⟩, fun _ => same r member⟩
  | reset at_ =>
    exact Table.forall_update.mpr fun r member =>
      ⟨fun met => .inl ⟨r, member, .reset at_ met.1 met.2⟩, fun _ => same r member⟩
  | paused => exact same
  | finished => exact same

theorem nextJobId_le {runner : Runner Input Snap Env} {s s' : State Input Snap} {a : Action Input Env}
    (effect : Effect runner s a s') : s.nextJobId ≤ s'.nextJobId := by
  cases effect with
  | memory move => exact move.tables.2.2.1.ge
  | created => exact Nat.le_succ _
  | reverted => exact Nat.le_succ _
  | _ => exact Nat.le_refl _

theorem nextRowId_le {runner : Runner Input Snap Env} {s s' : State Input Snap} {a : Action Input Env}
    (effect : Effect runner s a s') : s.nextRowId ≤ s'.nextRowId := by
  cases effect with
  | memory move => exact move.tables.2.2.2.1.ge
  | created => exact Nat.le_add_right _ _
  | reverted => exact Nat.le_add_right _ _
  | _ => exact Nat.le_refl _

theorem nextToken_le {runner : Runner Input Snap Env} {s s' : State Input Snap} {a : Action Input Env}
    (effect : Effect runner s a s') : s.nextToken ≤ s'.nextToken := by
  cases effect with
  | memory move => exact move.tables.2.2.2.2.1.ge
  | ran => exact Nat.le_succ _
  | _ => exact Nat.le_refl _

/-- A run in memory after a step was before it, with what it claimed, or the step started it. -/
theorem claim_of_effect {runner : Runner Input Snap Env} {s s' : State Input Snap} {a : Action Input Env}
    (effect : Effect runner s a s') :
    ∀ run' ∈ s'.runs, (∃ run ∈ s.runs, run.claim = run'.claim) ∨
      run'.token = s.nextToken ∧ ∃ record ∈ s.jobs, run'.job = s.started record := by
  have fewer : (s'.runs.map Run.claim).Sublist (s.runs.map Run.claim) →
      ∀ run' ∈ s'.runs, (∃ run ∈ s.runs, run.claim = run'.claim) ∨
        run'.token = s.nextToken ∧ ∃ record ∈ s.jobs, run'.job = s.started record :=
    fun claims _ member => .inl (Table.exists_of_map_sublist claims member)
  cases effect with
  | memory move => exact fewer move.tables.2.2.2.2.2.2
  | @ran _ record found =>
    intro run' member
    rcases List.mem_append.mp member with old | new
    · exact .inl ⟨run', old, rfl⟩
    · cases List.mem_singleton.mp new
      exact .inr ⟨rfl, record, found, rfl⟩
  | claimed => exact fewer (by simp [State.claimedBy])
  | recorded => exact fewer (by simp [State.written])
  | reset => exact fewer (by simp [State.written])
  | paused => exact fewer State.crash_claims
  | finished => exact fewer State.crash_claims
  | _ => exact fewer (.refl _)

/-- Every job's run token after a step is one it had before, or the one its claim gave it. -/
theorem token_of_effect {runner : Runner Input Snap Env} {s s' : State Input Snap} {a : Action Input Env}
    (effect : Effect runner s a s') {t : Token} :
    ∀ j' ∈ s'.jobs, j'.runToken = some t →
      (∃ j ∈ s.jobs, j.id = j'.id ∧ j.runToken = some t ∧ (j.status = .running → j'.status = .running)) ∨
        t = s.nextToken ∧ j'.status = .running ∧ ∃ record, record.id = j'.id ∧ s' = s.ran j'.id record := by
  have same : ∀ j ∈ s.jobs, j.runToken = some t →
      (∃ i ∈ s.jobs, i.id = j.id ∧ i.runToken = some t ∧ (i.status = .running → j.status = .running)) ∨
        t = s.nextToken ∧ j.status = .running ∧ ∃ record, record.id = j.id ∧ s' = s.ran j.id record :=
    fun j member held => .inl ⟨j, member, rfl, held, id⟩
  have inserted : ∀ {actor action reverts} {rows : List (BulkJobRowInput Input)},
      ∀ j ∈ (s.insert actor action reverts rows).jobs, j.runToken = some t → j ∈ s.jobs := by
    intro actor action reverts rows j member held
    rcases List.mem_append.mp member with old | new
    · exact old
    · cases List.mem_singleton.mp new
      cases held
  cases effect with
  | memory move =>
    rw [move.tables.1]
    exact same
  | created => exact fun j member held => same j (inserted j member held) held
  | reverted => exact fun j member held => same j (inserted j member held) held
  | discarded => exact fun j member => same j (Table.mem_delete.mp member).1
  | resumed =>
    refine Table.forall_update.mpr fun j member =>
      ⟨fun met held => .inl ⟨j, member, rfl, held, fun status => ?_⟩,
      fun _ => same j member⟩
    simp [met.2] at status
  | retried =>
    refine Table.forall_update.mpr fun j member =>
      ⟨fun met held => .inl ⟨j, member, rfl, held, fun status => ?_⟩,
      fun _ => same j member⟩
    have stopped := met.2.1
    simp [status] at stopped
  | cancelled => exact Table.forall_update.mpr fun j member => ⟨by simp, fun _ => same j member⟩
  | swept => exact Table.forall_update.mpr fun j member => ⟨by simp, fun _ => same j member⟩
  | interrupted => exact same
  | ran found named =>
    refine Table.forall_update.mpr fun j member => ⟨fun met held => .inr ?_, fun _ => same j member⟩
    obtain ⟨rfl, _⟩ := met
    exact ⟨(Option.some.inj held).symm, rfl, _, named, rfl⟩
  | beaten => exact Table.forall_update.mpr fun j member => ⟨fun _ => same j member, fun _ => same j member⟩
  | claimed => exact same
  | recorded => exact same
  | reset => exact same
  | paused => exact Table.forall_update.mpr fun j member => ⟨by simp, fun _ => same j member⟩
  | finished => exact Table.forall_update.mpr fun j member => ⟨by simp, fun _ => same j member⟩

end OpenAduc.BulkJobs
