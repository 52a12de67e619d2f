import OpenAduc.BulkJobs.InHand

namespace OpenAduc.BulkJobs
variable {Input Snap Env : Type}

/-- A run about to finish its job: its workers are done and none of them paused it. -/
def Run.Finishing (run : Run Input Snap) : Prop :=
  run.workers.all Worker.isDone = true ∧ State.pauseOf run = none

instance (run : Run Input Snap) : Decidable run.Finishing :=
  inferInstanceAs (Decidable (_ ∧ _))

namespace State
variable (s : State Input Snap)

/-- The rows of a stopped job have settled, or still run: a worker of the run
that claimed them has them in hand. -/
def NoneStranded : Prop :=
  ∀ j ∈ s.jobs, j.status ∈ stoppedStatuses → ∀ r ∈ s.rows, r.jobId = j.id →
    r.status ∈ settledStatuses ∨ r.status = .running ∧ s.InHand r

instance : Decidable s.NoneStranded :=
  inferInstanceAs (Decidable (∀ _ ∈ _, _))

/-- A job to put a row back to: it hasn't stopped, and no run is about to finish it. -/
def Awaits (j : JobRecord) : Prop :=
  j.status ∉ stoppedStatuses ∧ ∀ run ∈ s.runs, Settles run.token run.job.id j → ¬run.Finishing

instance (j : JobRecord) : Decidable (s.Awaits j) :=
  inferInstanceAs (Decidable (_ ∧ _))

variable (watched : BulkJobKind × Option JobId → Option Snap → Prop)

/-- Whether a row of the job is pending, of those with a snapshot that is watched. -/
def Pends (watched : Option Snap → Prop) (job : JobId) : Prop :=
  ∃ r ∈ s.rows, r.jobId = job ∧ r.status = .pending ∧ watched r.after

/-- A watched row put back, where the write still matches it, is one its job awaits. -/
def PutBackInTime (a : Action Input Env) : Prop :=
  ∀ p ∈ s.putsBack a, ∀ r ∈ s.rows, r.id = p.2.id → r.runToken = some p.1 →
    ∀ j ∈ s.jobs, j.id = r.jobId → watched j.kind r.after → s.Awaits j

instance [∀ kind, DecidablePred (watched kind)] (a : Action Input Env) :
    Decidable (s.PutBackInTime watched a) :=
  inferInstanceAs (Decidable (∀ _ ∈ _, _))

/-- The job a step stops: one that is cancelled, or that its run finishes. -/
def stops : Action Input Env → Option JobId
  | .cancel job => some job
  | .settle token =>
    ((s.findRun token).filter fun run =>
      run.Finishing ∧ ∃ j ∈ s.jobs, Settles token run.job.id j).map (·.job.id)
  | _ => none

/-- No worker ends that has a row of a stopped job in hand, and no job stops
with a row that runs in nobody's hands. -/
def Attended (a : Action Input Env) : Prop :=
  (∀ x ∈ s.dropped a, ∀ r ∈ s.rows, r.id = x.2 → r.runToken = some x.1 → r.status = .running →
    ∀ j ∈ s.jobs, j.id = r.jobId → j.status ∉ stoppedStatuses) ∧
  ∀ job ∈ s.stops a, ∀ r ∈ s.rows, r.jobId = job → r.status = .running → s.InHand r

instance (a : Action Input Env) : Decidable (s.Attended a) :=
  inferInstanceAs (Decidable (_ ∧ _))

/-- What keeps watched rows from being stranded: a run about to finish its job
has seen every row claimed. -/
structure Unstranded : Prop where
  stopped : ∀ j ∈ s.jobs, j.status ∈ stoppedStatuses → ¬s.Pends (watched j.kind) j.id
  finishing : ∀ run ∈ s.runs, run.Finishing → ∀ j ∈ s.jobs, Settles run.token run.job.id j →
    ¬s.Pends (watched j.kind) run.job.id

variable {s} {watched} {s' : State Input Snap}

theorem pauseOf_eq_none {run : Run Input Snap} : pauseOf run = none ↔
    run.pause = none ∧ run.stopping = false := by
  simp [pauseOf]

/-- Rows an update makes none of pending. -/
theorem pending_of_update {cond : RowRecord Input Snap → Prop} [DecidablePred cond]
    {set : RowRecord Input Snap → RowRecord Input Snap} {watched : Option Snap → Prop} {job : JobId}
    (pending : ∃ r ∈ Table.update cond set s.rows, r.jobId = job ∧ r.status = .pending ∧ watched r.after)
    (settled : ∀ r, (set r).status ≠ .pending) : s.Pends watched job :=
  Table.exists_of_update pending fun r _ _ after => absurd after.2.1 (settled r)

theorem pending_of_insert {actor : JobActor} {action : BulkJobKind} {reverts : Option JobId}
    {rows : List (BulkJobRowInput Input)} {watched : Option Snap → Prop} {job : JobId}
    (other : job ≠ s.nextJobId)
    (pending : (s.insert actor action reverts rows).Pends watched job) : s.Pends watched job := by
  obtain ⟨r, member, owned, status⟩ := pending
  rcases List.mem_append.mp member with old | new
  · exact ⟨r, old, owned, status⟩
  · obtain ⟨_, _, rfl⟩ := List.mem_map.mp new
    exact absurd owned.symm other

end State

variable {s s' : State Input Snap}
open State

theorem stopped_insert (wf : WellFormed s) (un : s.Unstranded watched) {actor : JobActor}
    {action : BulkJobKind}
    {reverts : Option JobId} {rows : List (BulkJobRowInput Input)} :
    ∀ j ∈ (s.insert actor action reverts rows).jobs, j.status ∈ stoppedStatuses →
      ¬(s.insert actor action reverts rows).Pends (watched j.kind) j.id := by
  intro j member status pending
  rcases List.mem_append.mp member with old | new
  · exact un.stopped j old status (pending_of_insert (wf.jobIds j old).ne pending)
  · cases List.mem_singleton.mp new
    simp [stoppedStatuses] at status

/-- A step leaves no row pending in a stopped job where rows are put back in time. -/
theorem stopped_step (wf : WellFormed s) (un : s.Unstranded watched) {runner : Runner Input Snap Env}
    {a : Action Input Env} (inTime : s.PutBackInTime watched a) (effect : Effect runner s a s') :
    ∀ j ∈ s'.jobs, j.status ∈ stoppedStatuses → ¬s'.Pends (watched j.kind) j.id := by
  cases effect with
  | memory move =>
    obtain ⟨jobs, rows, _⟩ := move.tables
    simp only [Pends, jobs, rows]
    exact un.stopped
  | created => exact stopped_insert wf un
  | reverted => exact stopped_insert wf un
  | discarded =>
    rintro j member status ⟨r, memberR, pending⟩
    exact un.stopped j (Table.mem_delete.mp member).1 status ⟨r, (Table.mem_delete.mp memberR).1, pending⟩
  | resumed =>
    exact Table.forall_update.mpr fun j member => ⟨by simp [stoppedStatuses], fun _ => un.stopped j member⟩
  | retried _ _ retriable =>
    refine Table.forall_update.mpr fun j member =>
      ⟨by simp [stoppedStatuses], fun skipped status pending => ?_⟩
    refine un.stopped j member status (Table.exists_of_update pending fun r _ met after => ?_)
    obtain ⟨k, memberK, retried⟩ := retriable
    cases wf.jobsKeyed.eq_of_key member memberK (after.1.symm.trans (met.1.trans retried.1.symm))
    exact absurd retried skipped
  | cancelled =>
    refine Table.forall_update.mpr fun j member => ⟨fun met _ => ?_, fun _ status pending => ?_⟩
    · rintro ⟨_, memberR, owned, pending⟩
      obtain ⟨r, _, rfl⟩ := Table.mem_update.mp memberR
      split at pending
      next => simp at pending
      next kept =>
        rw [if_neg kept] at owned
        exact kept ⟨owned.trans met.1, pending.1⟩
    · exact un.stopped j member status (pending_of_update pending (by simp))
  | swept =>
    exact Table.forall_update.mpr fun j member => ⟨by simp [stoppedStatuses], fun _ => un.stopped j member⟩
  | interrupted =>
    exact fun j member status pending =>
      un.stopped j member status (pending_of_update pending (by simp))
  | ran =>
    exact Table.forall_update.mpr fun j member =>
      ⟨by simp [started, stoppedStatuses], fun _ => un.stopped j member⟩
  | beaten =>
    exact Table.forall_update.mpr fun j member => ⟨fun _ => un.stopped j member, fun _ => un.stopped j member⟩
  | claimed =>
    exact fun j member status pending =>
      un.stopped j member status (pending_of_update pending (by simp))
  | @recorded _ _ _ _ outcome =>
    exact fun j member status pending => un.stopped j member status
      (pending_of_update pending fun _ => outcome.status_settled.1)
  | reset at_ =>
    intro j member status pending
    refine un.stopped j member status (Table.exists_of_update pending fun r memberR met after => ?_)
    have awaits := inTime _ (putsBack_resetting at_) r memberR met.1 met.2 j member after.1.symm after.2.2
    exact absurd status awaits.1
  | paused =>
    exact Table.forall_update.mpr fun j member => ⟨by simp [stoppedStatuses], fun _ => un.stopped j member⟩
  | finished found ended why =>
    refine Table.forall_update.mpr fun j member => ⟨fun settles _ => ?_, fun _ => un.stopped j member⟩
    have none := un.finishing _ (Table.find_mem found).1 ⟨ended, why⟩ j member settles
    rw [← settles.1] at none
    exact none

/-- A run whose worker is not done once moved was finishing before if it is now. -/
theorem finishing_of_setWorker {runs : List (Run Input Snap)} {token : Token} {w : Nat}
    {worker : Worker Input Snap} (busy : worker.isDone = false) {run' : Run Input Snap}
    (member : run' ∈ Table.update (fun r => r.token = token)
      (fun r => { r with workers := r.workers.set w worker }) runs)
    (finishing : run'.Finishing) : ∃ run ∈ runs, run.claim = run'.claim ∧ run.Finishing := by
  obtain ⟨run, old, rfl⟩ := Table.mem_update.mp member
  split at finishing
  next moved =>
    rw [if_pos moved]
    refine ⟨run, old, rfl, ?_, finishing.2⟩
    have ended := finishing.1
    by_cases within : w < run.workers.length
    · have done := List.all_eq_true.mp ended worker (List.mem_set within worker)
      simp [busy] at done
    · simpa [List.set_eq_of_length_le (Nat.le_of_not_lt within)] using ended
  next kept =>
    rw [if_neg kept]
    exact ⟨run, old, rfl, finishing⟩

/-- A step that makes no row pending, starts no job and ends no run. -/
theorem finishing_kept {t : State Input Snap} (un : s.Unstranded watched)
    (pending : ∀ watched k, t.Pends watched k → s.Pends watched k)
    (jobs : ∀ j' ∈ t.jobs, ∀ token k, Settles token k j' → ∃ j ∈ s.jobs, j.kind = j'.kind ∧ Settles token k j)
    (runs : ∀ run' ∈ t.runs, run'.Finishing → ∃ run ∈ s.runs, run.claim = run'.claim ∧ run.Finishing) :
    ∀ run ∈ t.runs, run.Finishing → ∀ j ∈ t.jobs, Settles run.token run.job.id j →
      ¬t.Pends (watched j.kind) run.job.id := by
  intro run' memberRun finishing j' memberJ settles still
  obtain ⟨run, old, same, finishing⟩ := runs run' memberRun finishing
  obtain ⟨token, job⟩ := Run.claim_eq.mp same
  rw [← token, ← job] at settles
  obtain ⟨j, memberJ, kind, settles⟩ := jobs j' memberJ _ _ settles
  rw [← kind, ← job] at still
  exact un.finishing run old finishing j memberJ settles (pending _ _ still)

/-- An update that runs no job gives none to a run. -/
theorem settles_of_update {cond : JobRecord → Prop} [DecidablePred cond] {set : JobRecord → JobRecord}
    (ended : ∀ j, (set j).status ≠ .running) :
    ∀ j' ∈ Table.update cond set s.jobs, ∀ t k, Settles t k j' → ∃ j ∈ s.jobs, j.kind = j'.kind ∧
      Settles t k j :=
  Table.forall_update.mpr fun j member => ⟨fun _ _ _ settles => absurd settles.2.2 (ended j),
    fun _ _ _ settles => ⟨j, member, rfl, settles⟩⟩

theorem finishing_insert (wf : WellFormed s) (un : s.Unstranded watched) {actor : JobActor}
    {action : BulkJobKind}
    {reverts : Option JobId} {rows : List (BulkJobRowInput Input)} :
    ∀ run ∈ s.runs, run.Finishing → ∀ j ∈ (s.insert actor action reverts rows).jobs,
      Settles run.token run.job.id j → ¬(s.insert actor action reverts rows).Pends (watched j.kind)
      run.job.id := by
  intro run member finishing j memberJ settles pending
  rcases List.mem_append.mp memberJ with old | new
  · refine un.finishing run member finishing j old settles (pending_of_insert ?_ pending)
    rw [← settles.1]
    exact (wf.jobIds j old).ne
  · cases List.mem_singleton.mp new
    cases settles.2.1

/-- A run that is told to pause is not about to finish its job. -/
theorem finishing_paused (un : s.Unstranded watched) {token : Token} {set : Run Input Snap → Run Input Snap}
    (paused : ∀ run, ¬(set run).Finishing) :
    ∀ run ∈ (s.updateRun token set).runs, run.Finishing → ∀ j ∈ s.jobs, Settles run.token run.job.id j →
      ¬s.Pends (watched j.kind) run.job.id :=
  Table.forall_update.mpr fun run member =>
    ⟨fun _ finishing => absurd finishing (paused run), fun _ => un.finishing run member⟩

/-- A worker that waits no more has seen no row pending. -/
theorem finishing_move (wf : WellFormed s) (un : s.Unstranded watched) {runner : Runner Input Snap Env}
    {a : Action Input Env} (move : Move runner s a s') :
    ∀ run ∈ s'.runs, run.Finishing → ∀ j ∈ s.jobs, Settles run.token run.job.id j →
      ¬s.Pends (watched j.kind) run.job.id := by
  have one : ∀ {token w run worker}, s.findWorker token w = some (run, worker) →
      ∀ other ∈ s.runs, other.token = token → other = run := by
    intro token w run worker at_ other member named
    obtain ⟨memberRun, same⟩ := Table.find_mem (findWorker_some at_).1
    exact wf.runsKeyed.eq_of_key member memberRun (named.trans same.symm)
  have busy : ∀ {token w worker}, worker.isDone = false → ∀ run ∈ (s.setWorker token w worker).runs,
      run.Finishing → ∀ j ∈ s.jobs, Settles run.token run.job.id j →
        ¬s.Pends (watched j.kind) run.job.id := by
    intro token w worker busy
    exact finishing_kept (t := s.setWorker token w worker) un (fun _ _ => id)
      (fun j member _ _ settles => ⟨j, member, rfl, settles⟩) fun _ => finishing_of_setWorker busy
  cases move with
  | ticked => exact un.finishing
  | audited => exact un.finishing
  | stopped =>
    exact finishing_paused un fun run finishing => by simpa using (pauseOf_eq_none.mp finishing.2).2
  | crashed => exact fun run member => un.finishing run (Table.mem_delete.mp member).1
  | looped at_ =>
    split
    next leaving =>
      refine Table.forall_update.mpr fun run member =>
        ⟨fun named finishing => ?_, fun _ => un.finishing run member⟩
      cases one at_ run member named
      have why := pauseOf_eq_none.mp finishing.2
      simp_all
    next => exact busy rfl
  | elevated at_ =>
    split
    next leaving =>
      refine Table.forall_update.mpr fun run member =>
        ⟨fun named finishing => ?_, fun _ => un.finishing run member⟩
      cases one at_ run member named
      have why := pauseOf_eq_none.mp finishing.2
      simp_all
    next => exact busy rfl
  | stepUp =>
    rw [State.setPause_setWorker]
    exact finishing_paused un fun run finishing => by simpa using (pauseOf_eq_none.mp finishing.2).1
  | failed =>
    rw [State.setPause_setWorker]
    exact finishing_paused un fun run finishing => by simpa using (pauseOf_eq_none.mp finishing.2).1
  | looked => exact busy rfl
  | waited at_ =>
    split
    next => exact busy rfl
    next none =>
      refine Table.forall_update.mpr fun run member => ⟨fun named _ j memberJ settles pending => ?_,
        fun _ => un.finishing run member⟩
      cases one at_ run member named
      obtain ⟨r, memberR, owned, status⟩ := pending
      refine none ⟨r, memberR, owned, status.1, j, memberJ, settles.1.trans owned.symm, ?_⟩
      exact ⟨settles.2.2, named ▸ settles.2.1⟩
  | @handled _ _ _ _ _ outcome => cases outcome <;> exact busy rfl
  | unanswered =>
    rw [State.setPause_setWorker]
    exact finishing_paused un fun run finishing => by simpa using (pauseOf_eq_none.mp finishing.2).1

/-- A step leaves a run about to finish its job with no row pending where
rows are put back in time. -/
theorem finishing_step (wf : WellFormed s) (un : s.Unstranded watched) {runner : Runner Input Snap Env}
    {a : Action Input Env} (inTime : s.PutBackInTime watched a) (effect : Effect runner s a s') :
    ∀ run ∈ s'.runs, run.Finishing → ∀ j ∈ s'.jobs, Settles run.token run.job.id j →
      ¬s'.Pends (watched j.kind) run.job.id := by
  have same : ∀ run' ∈ s.runs, run'.Finishing → ∃ run ∈ s.runs, run.claim = run'.claim ∧ run.Finishing :=
    fun run' member finishing => ⟨run', member, rfl, finishing⟩
  have kept : ∀ j ∈ s.jobs, ∀ t k, Settles t k j → ∃ i ∈ s.jobs, i.kind = j.kind ∧ Settles t k i :=
    fun j member t k settles => ⟨j, member, rfl, settles⟩
  cases effect with
  | memory move =>
    obtain ⟨jobs, rows, _⟩ := move.tables
    simp only [Pends, jobs, rows]
    exact finishing_move wf un move
  | created => exact finishing_insert wf un
  | reverted => exact finishing_insert wf un
  | discarded =>
    refine finishing_kept un ?_ (fun j member => kept j (Table.mem_delete.mp member).1) same
    rintro _ k ⟨r, member, pending⟩
    exact ⟨r, (Table.mem_delete.mp member).1, pending⟩
  | resumed =>
    exact finishing_kept un (fun _ _ => id) (settles_of_update (by simp)) same
  | retried _ _ retriable =>
    intro run memberRun finishing
    refine Table.forall_update.mpr fun j member => ⟨fun _ settles => ?_, fun skipped settles pending => ?_⟩
    · cases settles.2.2
    refine un.finishing run memberRun finishing j member settles
      (Table.exists_of_update pending fun r _ met after => ?_)
    obtain ⟨k, memberK, retried⟩ := retriable
    have named : j.id = k.id := settles.1.trans (after.1.symm.trans (met.1.trans retried.1.symm))
    cases wf.jobsKeyed.eq_of_key member memberK named
    exact absurd retried skipped
  | cancelled =>
    exact finishing_kept un (fun _ _ pending => pending_of_update pending (by simp))
      (settles_of_update (by simp)) same
  | swept =>
    exact finishing_kept un (fun _ _ => id) (settles_of_update (by simp)) same
  | interrupted => exact finishing_kept un (fun _ _ pending => pending_of_update pending (by simp)) kept same
  | ran =>
    intro run memberRun finishing
    rcases List.mem_append.mp memberRun with old | new
    · refine Table.forall_update.mpr fun j member => ⟨fun _ settles => ?_,
        fun _ => un.finishing run old finishing j member⟩
      exact absurd (Option.some.inj settles.2.1).symm (wf.runTokens run old).ne
    · cases List.mem_singleton.mp new
      exact absurd finishing.1 (by simp [rowConcurrency, Worker.isDone])
  | beaten =>
    refine finishing_kept un (fun _ _ => id) ?_ same
    exact Table.forall_update.mpr fun j member =>
      ⟨fun _ _ _ settles => ⟨j, member, rfl, settles⟩, fun _ => kept j member⟩
  | claimed =>
    exact finishing_kept un (fun _ _ pending => pending_of_update pending (by simp)) kept
      fun _ => finishing_of_setWorker rfl
  | @recorded _ _ _ _ outcome =>
    exact finishing_kept un (fun _ _ pending => pending_of_update pending fun _ =>
      outcome.status_settled.1) kept
      fun _ => finishing_of_setWorker rfl
  | reset at_ =>
    intro run' memberRun finishing j member settles pending
    obtain ⟨run, old, same, finishing⟩ := finishing_of_setWorker rfl memberRun finishing
    obtain ⟨token, job⟩ := Run.claim_eq.mp same
    rw [← token, ← job] at settles
    rw [← job] at pending
    refine un.finishing run old finishing j member settles
      (Table.exists_of_update pending fun r memberR met after => ?_)
    have named := settles.1.trans after.1.symm
    have awaits := inTime _ (putsBack_resetting at_) r memberR met.1 met.2 j member named after.2.2
    exact absurd finishing (awaits.2 run old settles)
  | paused =>
    exact finishing_kept un (fun _ _ => id) (settles_of_update (by simp))
      fun run member => same run (Table.mem_delete.mp member).1
  | finished =>
    exact finishing_kept un (fun _ _ => id) (settles_of_update (by simp))
      fun run member => same run (Table.mem_delete.mp member).1

/-- A job that is stopped after a step was before it, or the step stops it. -/
theorem stopped_of_effect {runner : Runner Input Snap Env} {a : Action Input Env}
    (effect : Effect runner s a s') :
    ∀ j' ∈ s'.jobs, j'.status ∈ stoppedStatuses →
      (∃ j ∈ s.jobs, j.id = j'.id ∧ j.status ∈ stoppedStatuses) ∨ j'.id ∈ s.stops a := by
  have inserted : ∀ {actor action reverts} {rows : List (BulkJobRowInput Input)},
      ∀ j' ∈ (s.insert actor action reverts rows).jobs, j'.status ∈ stoppedStatuses →
        (∃ j ∈ s.jobs, j.id = j'.id ∧ j.status ∈ stoppedStatuses) ∨ j'.id ∈ s.stops a := by
    intro actor action reverts rows j' member status
    rcases List.mem_append.mp member with old | new
    · exact .inl ⟨j', old, rfl, status⟩
    · cases List.mem_singleton.mp new
      simp [stoppedStatuses] at status
  cases effect with
  | memory move =>
    rw [move.tables.1]
    exact fun j' member status => .inl ⟨j', member, rfl, status⟩
  | created => exact inserted
  | reverted => exact inserted
  | discarded => exact fun j' member status => .inl ⟨j', (Table.mem_delete.mp member).1, rfl, status⟩
  | resumed | retried | swept | ran | paused =>
    exact Table.forall_update.mpr fun j member =>
      ⟨by simp [started, stoppedStatuses], fun _ status => .inl ⟨j, member, rfl, status⟩⟩
  | beaten =>
    exact Table.forall_update.mpr fun j member =>
      ⟨fun _ status => .inl ⟨j, member, rfl, status⟩, fun _ status => .inl ⟨j, member, rfl, status⟩⟩
  | cancelled =>
    exact Table.forall_update.mpr fun j member =>
      ⟨fun met _ => .inr (congrArg some met.1.symm), fun _ status => .inl ⟨j, member, rfl, status⟩⟩
  | finished found ended why =>
    refine Table.forall_update.mpr fun j member =>
      ⟨fun settles _ => .inr ?_, fun _ status => .inl ⟨j, member, rfl, status⟩⟩
    have named := (Table.find_mem found).2
    have held : ∃ j ∈ s.jobs, Settles _ _ j := ⟨j, member, named ▸ settles⟩
    simp only [stops, found, Option.mem_def, Option.map_eq_some_iff, Option.filter_eq_some_iff,
      decide_eq_true_eq]
    exact ⟨_, ⟨rfl, ⟨ended, why⟩, held⟩, settles.1.symm⟩
  | _ => exact fun j' member status => .inl ⟨j', member, rfl, status⟩

theorem dropped_of_stops {a : Action Input Env} {job : JobId} (stops : job ∈ s.stops a) :
    s.dropped a = [] := by
  cases a <;> first | rfl | cases stops

/-- Each row that runs in a stopped job is in hand. -/
def State.StoppedInHand (s : State Input Snap) : Prop :=
  ∀ j ∈ s.jobs, j.status ∈ stoppedStatuses → ∀ r ∈ s.rows, r.jobId = j.id → r.status = .running → s.InHand r

/-- A step that attends to what it stops keeps a stopped job's running rows in hand. -/
theorem inHand_step (wf : WellFormed s) (held : s.StoppedInHand) {runner : Runner Input Snap Env}
    {a : Action Input Env}
    (attended : s.Attended a) (effect : Effect runner s a s') : s'.StoppedInHand := by
  intro j' member status r memberR owned running
  rcases inHand_of_effect wf effect r memberR running with inHand | ⟨old, lost⟩
  · exact inHand
  · exfalso
    rcases stopped_of_effect effect j' member status with ⟨j, memberJ, named, stopped⟩ | stops
    · have before := held j memberJ stopped r old (owned.trans named.symm) running
      rcases lost with none | ⟨x, drops, its, token⟩
      · exact none before
      · exact attended.1 x drops r old its.symm token running j memberJ (named.trans owned.symm) stopped
    · have before := attended.2 _ stops r old owned running
      rcases lost with none | ⟨x, drops, _⟩
      · exact none before
      · rw [dropped_of_stops stops] at drops
        cases drops

theorem stoppedInHand_of_reach {runner : Runner Input Snap Env}
    {meets : State Input Snap → Action Input Env → Prop}
    (reach : (service runner).Reach meets s) (attended : ∀ s a, meets s a → s.Attended a) :
    s.StoppedInHand := by
  refine reach.invariant (P := State.StoppedInHand) ?_ fun _ _ _ previous held met taken => ?_
  · rintro _ rfl
    simp [StoppedInHand, State.empty]
  · exact inHand_step (.of_reach previous) held (attended _ _ met) (effect_of_step taken)

theorem unstranded_of_reach {runner : Runner Input Snap Env}
    (reach : (service runner).Reach (PutBackInTime · watched) s) :
    s.Unstranded watched := by
  refine reach.invariant (P := (Unstranded · watched)) ?_ fun _ _ _ previous un inTime taken => ?_
  · rintro _ rfl
    constructor <;> simp [State.empty]
  · have wf := WellFormed.of_reach previous
    have effect := effect_of_step taken
    exact ⟨stopped_step wf un inTime effect, finishing_step wf un inTime effect⟩

/-- In every run that puts rows back only to a job that awaits them, and leaves
no row of a job that stops without a worker, none of a stopped job's rows is
pending, and each that runs is in a worker's hands. -/
theorem noneStranded_of_reach {runner : Runner Input Snap Env}
    (reach : (service runner).Reach (fun s a => s.PutBackInTime (fun _ _ => True) a ∧ s.Attended a) s) :
    s.NoneStranded := by
  have un := unstranded_of_reach (reach.mono fun _ _ met => met.1)
  have inHand := stoppedInHand_of_reach reach fun _ _ met => met.2
  intro j member status r memberR owned
  cases state : r.status with
  | pending => exact absurd ⟨r, memberR, owned, state, trivial⟩ (un.stopped j member status)
  | running => exact .inr ⟨rfl, inHand j member status r memberR owned state⟩
  | _ => exact .inl (by simp [settledStatuses])

/-- A job's one row finds no domain controller, and is put back before the run pauses. -/
def putBackThenFinished : List (Action Unit (RowResult Unit)) :=
  .create operator .userDisable [{ targetId := some "user", input := (), after := none }] ::
    .run 0 :: rowPass 0 0 (.threwUnavailable false) ++ (List.range rowConcurrency).map (.loop 0) ++
      [.settle 0, .resume operator 0] ++ wholeRun 0 1 [changed]

theorem noneStranded_put_back : ∃ s, (service told).run .empty putBackThenFinished = some s ∧
    (∃ j ∈ s.jobs, j.status = .finished) ∧ s.NoneStranded := by
  have ran : (((service told).run .empty putBackThenFinished).any
      fun s => ∃ j ∈ s.jobs, j.status = .finished) = true := by decide
  cases reached : (service told).run .empty putBackThenFinished with
  | none => simp [reached] at ran
  | some s =>
    have finished : ∃ j ∈ s.jobs, j.status = .finished := by simpa [reached] using ran
    have reach : (service told).Reach (fun s a => s.PutBackInTime (fun _ _ => True) a ∧ s.Attended a) s :=
      .of_run (.start rfl) reached (by decide)
    exact ⟨s, rfl, finished, noneStranded_of_reach reach⟩

/-- A job cancelled while its row is in flight: the row finds no domain
controller, and is put back where neither a resume nor a retry runs it. -/
def putBackCancelled : List (Action Unit (RowResult Unit)) :=
  [.create operator .userDisable [{ targetId := some "user", input := (), after := none }], .run 0, .loop 0 0,
    .credentials 0 0 true, .claimRow 0 0 [], .cancel 0, .runRow 0 0 (.threwUnavailable false), .record 0 0]

/-- A run's process dies with a row in flight, and the one that then pauses its
job dies too, or gets no answer, before it fails the row: the job is resumed,
and finishes with the row still running. -/
def leftRunning : List (Action Unit (RowResult Unit)) :=
  [.create operator .userDisable [{ targetId := some "user", input := (), after := none }], .run 0, .loop 0 0,
    .credentials 0 0 true, .claimRow 0 0 [], .crash 0, .tick 61, .recoverStale, .resume operator 0, .run 0] ++
      (List.range rowConcurrency).flatMap (leave 1) ++ [.settle 1]

/-- Rows are stranded, and putting them back in time is not enough to keep them from it. -/
theorem not_noneStranded : (¬∀ s, (service told).Reachable s → s.NoneStranded) ∧
    ¬∀ s, (service told).Reach (PutBackInTime · fun _ _ => True) s → s.NoneStranded := by
  constructor
  · intro holds
    have ran : (((service told).run .empty putBackCancelled).any (¬·.NoneStranded)) = true := by decide
    obtain ⟨s, reach, stranded⟩ := Transition.System.Reachable.exists_of_run (.start rfl) ran
    exact stranded (holds s reach)
  · intro holds
    have ran : (((service told).run .empty leftRunning).any (¬·.NoneStranded)) = true := by decide
    obtain ⟨s, reached, stranded⟩ := Transition.System.exists_of_any ran
    exact stranded (holds s (.of_run (.start rfl) reached (by decide)))

end OpenAduc.BulkJobs
