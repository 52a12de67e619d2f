import OpenAduc.BulkJobs.Membership
import OpenAduc.BulkJobs.Stranded
import OpenAduc.BulkJobs.InFlight

namespace OpenAduc.BulkJobs
variable {Env : Type}

/-- What runs every job's rows: a bulk membership job's as its handler does. -/
def membershipRunner (other : Runner RowInput RowSnapshot Env) :
    Runner RowInput RowSnapshot (MembershipEnv × Env) :=
  fun job row env =>
    match membershipOp job.kind with
    | some op => groupMembershipRun op row env.1
    | none => other job row env.2

/-- Bulk membership rows that hold changes. -/
def holdsChanges (kind : BulkJobKind × Option JobId) (after : Option RowSnapshot) : Prop :=
  (membershipOp kind).isSome ∧ changedGroups after ≠ []

instance (kind : BulkJobKind × Option JobId) : DecidablePred (holdsChanges kind) :=
  fun _ => inferInstanceAs (Decidable (_ ∧ _))

namespace Action

def cancels : Action RowInput Env → Option JobId
  | .cancel job => some job
  | _ => none

end Action

namespace State
variable (s : State RowInput RowSnapshot)

/-- `planRevert`'s changed rows: those a revert of the job judges. -/
def changed (job : JobId) : List (RowRecord RowInput RowSnapshot) :=
  s.rows.filter fun r => r.jobId = job ∧ r.status ∈ [BulkJobRowStatus.succeeded, .partially] ∧
    r.before.isSome ∧ r.after.isSome ∧ r.targetId.isSome

/-- A bulk membership row that holds changes. -/
def Holding (r : RowRecord RowInput RowSnapshot) : Prop :=
  ∃ j ∈ s.jobs, j.id = r.jobId ∧ holdsChanges j.kind r.after

instance (r : RowRecord RowInput RowSnapshot) : Decidable (s.Holding r) :=
  inferInstanceAs (Decidable (∃ _ ∈ _, _))

/-- The run, the row and the answers of the handler a step ends. -/
def handles : Action RowInput (MembershipEnv × Env) →
    Option (Token × JobRecord × RowRecord RowInput RowSnapshot × MembershipEnv)
  | .runRow token w env =>
    match s.findWorker token w with
    | some (run, .running row) => some (token, run.job, row, env.1)
    | _ => none
  | _ => none

/-- A bulk membership job's rows are stored with their targets, as its handler stores them. -/
def StoresTargets (a : Action RowInput (MembershipEnv × Env)) : Prop :=
  ∀ kind ∈ a.creates, (membershipOp kind).isSome → ∀ row ∈ a.stored, row.targetId.isSome

/-- No row that holds changes is skipped by a cancel, or failed as left in flight. -/
def SparesHeld (a : Action RowInput (MembershipEnv × Env)) : Prop :=
  (∀ job ∈ a.cancels, ∀ r ∈ s.rows, r.jobId = job → r.status = .pending → ¬s.Holding r) ∧
  ∀ p ∈ a.interrupts, ∀ r ∈ s.rows, r.jobId = p.1 → r.status = .running → (p.2 = none ∨ r.runToken = p.2) →
    ¬s.Holding r

/-- No run of a row that holds changes finds the account gone, or ends with an error that is recorded. -/
def HandlesHeld (a : Action RowInput (MembershipEnv × Env)) : Prop :=
  ∀ p ∈ s.handles a, ∀ op ∈ membershipOp p.2.1.kind, ∀ r ∈ s.rows, r.id = p.2.2.1.id → r.runToken = some p.1 →
    s.Holding r → p.2.2.2.refresh ≠ .gone ∧ (groupMembershipRun op p.2.2.1 p.2.2.2).raises = false

instance (a : Action RowInput (MembershipEnv × Env)) : Decidable (StoresTargets a) :=
  inferInstanceAs (Decidable (∀ _ ∈ _, _))

instance (a : Action RowInput (MembershipEnv × Env)) : Decidable (s.SparesHeld a) :=
  inferInstanceAs (Decidable (_ ∧ _))

instance (a : Action RowInput (MembershipEnv × Env)) : Decidable (s.HandlesHeld a) :=
  inferInstanceAs (Decidable (∀ _ ∈ _, _))

/-- Whatever a row holds is handed on: by its runs, by what stops its job, and
by a put-back, which goes to a job that will run the row again. -/
def HandsOn (a : Action RowInput (MembershipEnv × Env)) : Prop :=
  StoresTargets a ∧ s.SparesHeld a ∧ s.HandlesHeld a ∧ s.PutBackInTime holdsChanges a

instance (a : Action RowInput (MembershipEnv × Env)) : Decidable (s.HandsOn a) :=
  inferInstanceAs (Decidable (_ ∧ _))

/-- What holds of the bulk membership rows: each has its changes and their
negation, in a row that waits, runs or is judged; a row in flight has the
snapshots its claim read; and an outcome to record carries them on. -/
structure Carrying : Prop where
  rows : ∀ j ∈ s.jobs, ∀ op, membershipOp j.kind = some op → ∀ r ∈ s.rows, r.jobId = j.id →
    Snapshots op r.before r.after ∧ r.targetId.isSome ∧ (changedGroups r.after ≠ [] →
      r.status ∈ [BulkJobRowStatus.pending, .running, .succeeded, .partially])
  flights : ∀ c w row, s.Flies c w row → ∀ r ∈ s.rows, r.id = row.id → r.runToken = some c.1 →
    row.before = r.before ∧ row.after = r.after
  outcomes : ∀ c w row outcome, s.At c w (.recording row outcome) → ∀ op, membershipOp c.2.kind = some op →
    ∀ r ∈ s.rows, r.id = row.id → r.runToken = some c.1 → Carries op (changedGroups r.after) outcome

variable {s} {s' : State RowInput RowSnapshot} {other : Runner RowInput RowSnapshot Env}

theorem Carrying.empty : (State.empty : State RowInput RowSnapshot).Carrying := by
  constructor <;> simp [State.empty, Flies, At]

/-- The worker on a row runs it as a row of its job's kind. -/
theorem kind_of_flies (fly : InFlight s) {c : Token × JobRecord} {w : Nat}
    {row r : RowRecord RowInput RowSnapshot}
    (flies : s.Flies c w row) (member : r ∈ s.rows) (same : r.id = row.id) {j : JobRecord}
    (memberJ : j ∈ s.jobs)
    (owned : r.jobId = j.id) : c.2.kind = j.kind := by
  have job := (fly.place c w row flies).1
  have place := (fly.place c w row flies).2.2 r member same
  obtain ⟨_, ⟨run, memberRun, rfl, _⟩, _⟩ := flies
  have named : j.id = run.job.id := owned.symm.trans ((RowRecord.place_eq.mp place).2.1.trans job)
  exact (JobRecord.kind_eq ((fly.acts run memberRun).2 j memberJ named)).symm

/-- What a membership job's rows hold stays consistent, before the exact negation of after. -/
theorem rows_step (carrying : s.Carrying) (fly : InFlight s) (wf : WellFormed s)
    {a : Action RowInput (MembershipEnv × Env)} (handsOn : s.HandsOn a)
    (effect : Effect (membershipRunner other) s a s') :
    ∀ j ∈ s'.jobs, ∀ op, membershipOp j.kind = some op → ∀ r ∈ s'.rows, r.jobId = j.id →
      Snapshots op r.before r.after ∧ r.targetId.isSome ∧ (changedGroups r.after ≠ [] →
        r.status ∈ [BulkJobRowStatus.pending, .running, .succeeded, .partially]) := by
  intro j' memberJ' op membership r' memberR' owned'
  obtain ⟨stores, ⟨cancels, interrupts⟩, _, _⟩ := handsOn
  rcases rowStep_of_effect wf.rowsKeyed effect r' memberR' with ⟨r, old, step⟩ | fresh
  · have owned : r.jobId = j'.id := (RowRecord.place_eq.mp step.place).2.1.symm.trans owned'
    obtain ⟨j, memberJ, named, kind⟩ := wf.job_before effect memberJ' old owned
    rw [← kind] at membership
    obtain ⟨snapshots, target, judged⟩ := carrying.rows j memberJ op membership r old (owned.trans named.symm)
    have held : changedGroups r.after ≠ [] → s.Holding r := fun some =>
      ⟨j, memberJ, named.trans owned.symm, by simp [membership], some⟩
    cases step with
    | same => exact ⟨snapshots, target, judged⟩
    | retried => exact ⟨snapshots, target, fun _ => by simp⟩
    | skipped status =>
      exact ⟨snapshots, target, fun some => absurd (held some) (cancels _ rfl r old rfl status)⟩
    | interrupted status theirs =>
      exact ⟨snapshots, target, fun some => absurd (held some) (interrupts _ rfl r old rfl status theirs)⟩
    | claimed => exact ⟨snapshots, target, fun _ => by simp⟩
    | @recorded token w run row outcome _ at_ same theirs =>
      obtain ⟨rfl, here⟩ := at_of_findWorker at_
      have kind := kind_of_flies fly ⟨_, here, rfl⟩ old same memberJ (owned.trans named.symm)
      have carries := carrying.outcomes _ w row outcome here op (kind ▸ membership) r old same theirs
      refine ⟨carries.snapshots, ?_, fun some => ?_⟩
      · cases named : outcome.targetId <;> simp [recorded, named, target]
      · have status := carries.judged some
        simp only [List.mem_cons, List.not_mem_nil, or_false] at status
        rcases status with status | status <;> simp [status]
    | reset => exact ⟨snapshots, target, fun _ => by simp⟩
  · rw [fresh.before, fresh.after]
    refine ⟨.nothing, ?_, fun some => absurd rfl some⟩
    rcases link_of_effect effect j' memberJ' with ⟨j, memberJ, link⟩ | ⟨_, stored⟩
    · have named := (JobRecord.link_eq.mp link).1.trans (owned'.symm.trans fresh.jobId)
      exact absurd named (wf.jobIds j memberJ).ne
    · obtain ⟨row, indexed, _, target, _⟩ := fresh.input
      rw [target]
      cases a with
      | create _ action rows =>
        refine stores (action, none) rfl ?_ row (List.mem_of_getElem? indexed)
        rw [← stored, membership]
        rfl
      | revert =>
        obtain ⟨reverted, isRevert⟩ := Option.isSome_iff_exists.mp stored
        cases kind : j'.kind with
        | mk action reverts =>
          rw [kind] at membership isRevert
          cases isRevert
          cases action <;> cases membership
      | _ => cases stored

/-- A row in flight is written by no other worker under its token. -/
theorem unwritten (fly : InFlight s) (wf : WellFormed s) {a : Action RowInput (MembershipEnv × Env)}
    (effect : Effect (membershipRunner other) s a s') {c : Token × JobRecord} {w : Nat}
    {row r r' : RowRecord RowInput RowSnapshot} (before : s.Flies c w row) (after : s'.Flies c w row)
    (old : r ∈ s.rows) (step : RowStep s a r r') (same : r.id = row.id) (held : r'.runToken = some c.1) :
    r.runToken = some c.1 ∧ r'.before = r.before ∧ r'.after = r.after := by
  cases step with
  | claimed _ claimable =>
    obtain ⟨_, status, ⟨j, memberJ, _, _, holds⟩, _⟩ := claimable
    have lost := fly.pending c w row before r old same status j memberJ
    exact absurd (holds.trans held) lost
  | recorded at_ lands theirs =>
    have mine := Option.some.inj (held.symm.trans theirs)
    exact absurd mine (fly.written_other wf effect at_ rfl before after (same.symm.trans lands))
  | _ => exact ⟨held, rfl, rfl⟩

/-- A row in flight holds what its stored row does. -/
theorem flights_step (carrying : s.Carrying) (fly : InFlight s) (wf : WellFormed s)
    {a : Action RowInput (MembershipEnv × Env)} (effect : Effect (membershipRunner other) s a s')
    {c : Token × JobRecord} {w : Nat} {row : RowRecord RowInput RowSnapshot} (flies : s'.Flies c w row) :
    ∀ r ∈ s'.rows, r.id = row.id → r.runToken = some c.1 → row.before = r.before ∧ row.after = r.after := by
  intro r' member named held
  rcases flies_of_effect wf.runsKeyed effect flies with before | ⟨r₀, member₀, _, rfl, rfl, _⟩
  · rcases rowStep_of_effect wf.rowsKeyed effect r' member with ⟨r, old, step⟩ | fresh
    · have same := (RowRecord.place_eq.mp step.place).1.symm.trans named
      obtain ⟨heldBefore, sameBefore, sameAfter⟩ := unwritten fly wf effect before flies old step same held
      rw [sameBefore, sameAfter]
      exact carrying.flights c w row before r old same heldBefore
    · exact absurd (named ▸ fresh.id) (Nat.not_le.mpr (fly.place c w row before).2.1)
  · rw [InFlight.row_claimedBy wf.rowsKeyed member₀ member named]
    exact ⟨rfl, rfl⟩

/-- What a handler's run comes to carries the row's changes on, where one that holds any is handled. -/
theorem carries_of_judged {op : BulkMembershipOp} {row : RowRecord RowInput RowSnapshot} {env : MembershipEnv}
    {outcome : RowOutcome RowSnapshot} {pause : Bool} (snapshots : Snapshots op row.before row.after)
    (handled : changedGroups row.after ≠ [] → env.refresh ≠ .gone ∧
      (groupMembershipRun op row env).raises = false)
    (ended : judged (groupMembershipRun op row env) = (some outcome, pause)) :
    Carries op (changedGroups row.after) outcome := by
  have nothing : (groupMembershipRun op row env).raises = true → changedGroups row.after = [] := by
    intro raises
    by_contra some
    exact absurd raises (by simp [(handled some).2])
  cases ran : groupMembershipRun op row env with
  | returned result =>
    rw [ran] at ended
    cases ended
    by_cases gone : env.refresh = .gone
    · have none : changedGroups row.after = [] := by
        by_contra some
        exact (handled some).1 gone
      unfold groupMembershipRun at ran
      rw [none]
      split at ran
      · cases ran
      · rw [gone] at ran
        cases ran
        exact carries_nothing rfl rfl
    · exact groupMembershipRun_carries snapshots gone ran
  | threwUnavailable audited =>
    rw [ran] at ended nothing
    cases audited <;> cases ended
    rw [nothing rfl]
    exact carries_nothing rfl rfl
  | threw =>
    rw [ran] at ended nothing
    cases ended
    rw [nothing rfl]
    exact carries_nothing rfl rfl

/-- What is about to be recorded of a row keeps every change its stored row holds. -/
theorem outcomes_step (carrying : s.Carrying) (fly : InFlight s) (wf : WellFormed s)
    {a : Action RowInput (MembershipEnv × Env)} (handsOn : s.HandsOn a)
    (effect : Effect (membershipRunner other) s a s') {c : Token × JobRecord} {w : Nat}
    {row : RowRecord RowInput RowSnapshot} {outcome : RowOutcome RowSnapshot}
    (here : s'.At c w (.recording row outcome)) {op : BulkMembershipOp}
    (membership : membershipOp c.2.kind = some op) :
    ∀ r ∈ s'.rows, r.id = row.id → r.runToken = some c.1 → Carries op (changedGroups r.after) outcome := by
  intro r' member named held
  rcases at_of_effect wf.runsKeyed effect here with before | none | ⟨_, _, _, running, _⟩ |
    ⟨env, row', outcome', pause, rfl, there, ended, worker⟩
  · rcases rowStep_of_effect wf.rowsKeyed effect r' member with ⟨r, old, step⟩ | fresh
    · have same := (RowRecord.place_eq.mp step.place).1.symm.trans named
      obtain ⟨heldBefore, _, sameAfter⟩ :=
        unwritten fly wf effect ⟨_, before, rfl⟩ ⟨_, here, rfl⟩ old step same held
      rw [sameAfter]
      exact carrying.outcomes c w row outcome before op membership r old same heldBefore
    · exact absurd (named ▸ fresh.id) (Nat.not_le.mpr (fly.place c w row ⟨_, before, rfl⟩).2.1)
  · cases none
  · cases running
  · cases outcome' with
    | none => cases worker
    | some =>
      cases worker
      have rows : s'.rows = s.rows := by
        cases effect with
        | memory move => exact move.tables.2.1
      rw [rows] at member
      have flies : s.Flies c w row := ⟨_, there, rfl⟩
      obtain ⟨sameBefore, sameAfter⟩ := carrying.flights c w row flies r' member named held
      obtain ⟨j, memberJ, owner⟩ := wf.rowJobs r' member
      have kind := kind_of_flies fly flies member named memberJ owner.symm
      have snapshots := (carrying.rows j memberJ op (kind ▸ membership) r' member owner.symm).1
      simp only [membershipRunner, membership] at ended
      rw [← sameAfter]
      refine carries_of_judged (by rwa [sameBefore, sameAfter]) (fun some => ?_) ended
      obtain ⟨run, rfl, at_⟩ := findWorker_of_at wf.runsKeyed there
      have handles : (run.claim.1, run.claim.2, row, env.1) ∈ s.handles (.runRow run.claim.1 w env) := by
        simp only [State.handles, at_]
        rfl
      refine handsOn.2.2.1 _ handles op membership r' member named held ⟨j, memberJ, owner, ?_, ?_⟩
      · rw [← kind, membership]
        rfl
      · rwa [← sameAfter]

theorem carrying_of_reach (reach : (service (membershipRunner other)).Reach HandsOn s) : s.Carrying := by
  refine reach.invariant (fun _ init => init ▸ Carrying.empty) fun _ _ _ previous carrying handsOn taken => ?_
  have wf := WellFormed.of_reach previous
  have fly := InFlight.of_reach previous
  have effect := effect_of_step taken
  exact ⟨rows_step carrying fly wf handsOn effect, fun _ _ _ => flights_step carrying fly wf effect,
    fun _ _ _ _ here _ => outcomes_step carrying fly wf handsOn effect here⟩

/-- No step loses a change a bulk membership row holds. -/
theorem keeps_step (carrying : s.Carrying) (fly : InFlight s) (wf : WellFormed s)
    {a : Action RowInput (MembershipEnv × Env)} (effect : Effect (membershipRunner other) s a s')
    {j' : JobRecord}
    (memberJ' : j' ∈ s'.jobs) (membership : (membershipOp j'.kind).isSome)
    {r' : RowRecord RowInput RowSnapshot} (memberR' : r' ∈ s'.rows) (owned' : r'.jobId = j'.id) :
    ∀ r ∈ s.rows, r.id = r'.id → Keeps (changedGroups r.after) (changedGroups r'.after) := by
  intro q memberQ same
  rcases rowStep_of_effect wf.rowsKeyed effect r' memberR' with ⟨r, old, step⟩ | fresh
  · have place := RowRecord.place_eq.mp step.place
    cases wf.rowsKeyed.eq_of_key memberQ old (same.trans place.1)
    cases step with
    | @recorded token w run row outcome _ at_ named theirs =>
      have owned : q.jobId = j'.id := place.2.1.symm.trans owned'
      obtain ⟨j, memberJ, namedJ, kind⟩ := wf.job_before effect memberJ' old owned
      obtain ⟨op, some⟩ := Option.isSome_iff_exists.mp membership
      obtain ⟨rfl, here⟩ := at_of_findWorker at_
      have kindRun := kind_of_flies fly ⟨_, here, rfl⟩ old named memberJ (owned.trans namedJ.symm)
      rw [← kind, ← kindRun] at some
      exact (carrying.outcomes _ w row outcome here op some q old named theirs).keeps
    | _ => exact .refl _
  · exact absurd (same ▸ fresh.id) (Nat.not_le.mpr (wf.rowIds q memberQ))

theorem nextRowId_le_of_path
    {meets : State RowInput RowSnapshot → Action RowInput (MembershipEnv × Env) → Prop}
    (path : (service (membershipRunner other)).Path meets s s') : s.nextRowId ≤ s'.nextRowId := by
  induction path with
  | refl => exact Nat.le_refl _
  | tail _ _ taken ih => exact ih.trans (nextRowId_le (effect_of_step taken))

/-- A row that holds changes waits or runs in a job that hasn't stopped, or is one a revert judges. -/
theorem judged_or_open (carrying : s.Carrying) (un : s.Unstranded holdsChanges) {j : JobRecord}
    (memberJ : j ∈ s.jobs) {op : BulkMembershipOp} (membership : membershipOp j.kind = some op)
    {r : RowRecord RowInput RowSnapshot} (member : r ∈ s.rows) (owned : r.jobId = j.id)
    (holds : changedGroups r.after ≠ []) :
    r ∈ s.changed j.id ∨ r.status ∈ [BulkJobRowStatus.pending, .running] ∧
      bulkJobStopped j.status (s.counts j.id) = false := by
  obtain ⟨snapshots, target, judged⟩ := carrying.rows j memberJ op membership r member owned
  have both := snapshots.both holds
  have status := judged holds
  simp only [List.mem_cons, List.not_mem_nil, or_false] at status
  rcases status with pending | running | succeeded | partially
  · refine .inr ⟨by simp [pending], ?_⟩
    have open_ : j.status ∉ stoppedStatuses := fun stopped =>
      un.stopped j memberJ stopped ⟨r, member, owned, pending, by simp [membership], holds⟩
    simp only [stoppedStatuses, List.mem_cons, List.not_mem_nil, or_false] at open_
    simp [bulkJobStopped, open_]
  · refine .inr ⟨by simp [running], ?_⟩
    have counted : (s.counts j.id).running ≠ 0 := fun zero =>
      s.counts_running_eq_zero.mp zero ⟨r, member, owned, by simp [running]⟩
    simp [bulkJobStopped, counted]
  · exact .inl (List.mem_filter.mpr ⟨member, by simp [owned, succeeded, both, target]⟩)
  · exact .inl (List.mem_filter.mpr ⟨member, by simp [owned, partially, both, target]⟩)

end State

open State

/-- In every run that hands on whatever a row holds: a bulk membership row
keeps every change it ever held, beside their exact negation, and while it
holds any it is one a revert judges, or still to run in a job that hasn't stopped.
A row a dead run left running keeps its job from counting as stopped, so no revert
judges that one. -/
theorem membership_changes_kept {other : Runner RowInput RowSnapshot Env} {s u : State RowInput RowSnapshot}
    (reach : (service (membershipRunner other)).Reach HandsOn s)
    (path : (service (membershipRunner other)).Path HandsOn s u) {j : JobRecord} (memberJ : j ∈ u.jobs)
    {op : BulkMembershipOp} (membership : membershipOp j.kind = some op) {r : RowRecord RowInput RowSnapshot}
    (member : r ∈ u.rows) (owned : r.jobId = j.id) :
    (∀ q ∈ s.rows, q.id = r.id → Keeps (changedGroups q.after) (changedGroups r.after)) ∧
      Snapshots op r.before r.after ∧ (changedGroups r.after ≠ [] → r ∈ u.changed j.id ∨
        r.status ∈ [BulkJobRowStatus.pending, .running] ∧
          bulkJobStopped j.status (u.counts j.id) = false) := by
  have there := reach.path path
  have carrying := carrying_of_reach there
  refine ⟨?_, (carrying.rows j memberJ op membership r member owned).1,
    judged_or_open carrying (unstranded_of_reach (there.mono fun _ _ handsOn => handsOn.2.2.2))
      memberJ membership
      member owned⟩
  clear there carrying
  induction path generalizing j r with
  | refl =>
    intro q memberQ same
    cases (WellFormed.of_reach reach).rowsKeyed.eq_of_key memberQ member same
    exact .refl _
  | @tail t u a before met taken ih =>
    intro q memberQ same
    have there := reach.path before
    have wf := WellFormed.of_reach there
    have effect := effect_of_step taken
    rcases rowStep_of_effect wf.rowsKeyed effect r member with ⟨r₀, old, step⟩ | fresh
    · have place := RowRecord.place_eq.mp step.place
      have owned₀ := place.2.1.symm.trans owned
      obtain ⟨j₀, memberJ₀, named, kind⟩ := wf.job_before effect memberJ old owned₀
      have before₀ := ih memberJ₀ (kind ▸ membership) old (owned₀.trans named.symm) q memberQ
        (same.trans place.1)
      refine before₀.trans ?_
      exact keeps_step (carrying_of_reach there) (.of_reach there) wf effect memberJ
        (by simp [membership]) member owned
        r₀ old place.1.symm
    · have bound := (WellFormed.of_reach reach).rowIds q memberQ
      have grown := bound.trans_le (nextRowId_le_of_path before)
      exact absurd (same ▸ fresh.id) (Nat.not_le.mpr grown)

/-- What a run of a row with two groups is answered, the live read and each group's write. -/
def answers (refresh : RefreshAnswer) (staff payroll : WriteAnswer) : MembershipEnv × RowResult RowSnapshot :=
  ({ refresh
     groups := some fun id => some { id, name := if id = "staff" then "Staff" else "Payroll", sid := none }
     answer := fun id => { write := if id = "staff" then staff else payroll, audited := true }
     refreshed := true },
    .threw false)

/-- A user is added to one of two groups, and the other is refused. -/
def addedToOne : List (Action RowInput (MembershipEnv × RowResult RowSnapshot)) :=
  .create operator .userGroupAdd
      [{ targetId := some "user", input := .membership ["staff", "payroll"], after := none }] ::
    wholeRun 0 0 [answers (.found none) (.ok false) (.refused (some .permissionDenied) none)]

/-- The retry adds the user to the other group too. -/
def addedOnRetry : List (Action RowInput (MembershipEnv × RowResult RowSnapshot)) :=
  .retry operator 0 :: wholeRun 0 1 [answers (.found none) (.ok true) (.ok false)]

/-- The retry ends with an error: the cache can't be read. -/
def raisedOnRetry : List (Action RowInput (MembershipEnv × RowResult RowSnapshot)) :=
  .retry operator 0 ::
    wholeRun 0 1 [({ (answers (.found none) (.ok true) (.ok false)).1 with groups := none }, .threw false)]

def memberships : Transition.System (State RowInput RowSnapshot)
    (Action RowInput (MembershipEnv × RowResult RowSnapshot)) :=
  service (membershipRunner fun _ _ result => result)

/-- One group added, the rest on a retry. -/
theorem membership_changes_kept_retry :
    ∃ s u, memberships.run .empty addedToOne = some s ∧ memberships.run s addedOnRetry = some u ∧
      ∃ q ∈ s.rows, ∃ r ∈ u.rows, changedGroups q.after ≠ [] ∧ r.status = .succeeded ∧
        Keeps (changedGroups q.after) (changedGroups r.after) := by
  have ran : ((memberships.run .empty addedToOne).any fun s =>
      memberships.MeetsAlong HandsOn .empty addedToOne ∧ memberships.MeetsAlong HandsOn s addedOnRetry ∧
        (memberships.run s addedOnRetry).any fun u => ∃ j ∈ u.jobs, membershipOp j.kind = some .add ∧
          ∃ q ∈ s.rows, ∃ r ∈ u.rows, r.jobId = j.id ∧ q.id = r.id ∧ changedGroups q.after ≠ [] ∧
            r.status = .succeeded) = true := by decide +kernel
  obtain ⟨s, first, met, metRetry, ran⟩ := Transition.System.exists_of_any ran
  obtain ⟨u, second, j, memberJ, membership, q, memberQ, r, member, owned, same, holds, succeeded⟩ :=
    Transition.System.exists_of_any ran
  have kept := membership_changes_kept (.of_run (.start rfl) first met) (.of_run second metRetry) memberJ
    membership member owned
  exact ⟨s, u, first, second, q, memberQ, r, member, holds, succeeded, kept.1 q memberQ same⟩

/-- A retry that ends with an error loses the group the first run added: the
row is recorded without snapshots. -/
theorem membership_changes_lost :
    ¬∀ s u, memberships.Reachable s → memberships.Path (fun _ _ => True) s u →
      ∀ j ∈ u.jobs, ∀ op, membershipOp j.kind = some op → ∀ r ∈ u.rows, r.jobId = j.id →
        (∀ q ∈ s.rows, q.id = r.id → Keeps (changedGroups q.after) (changedGroups r.after)) ∧
          Snapshots op r.before r.after ∧ (changedGroups r.after ≠ [] → r ∈ u.changed j.id ∨
            r.status ∈ [BulkJobRowStatus.pending, .running] ∧
              bulkJobStopped j.status (u.counts j.id) = false) := by
  intro holds
  have ran : ((memberships.run .empty addedToOne).any fun s =>
      ((memberships.run s raisedOnRetry).any fun u => ∃ j ∈ u.jobs, membershipOp j.kind = some .add ∧
        ∃ q ∈ s.rows, ∃ r ∈ u.rows, r.jobId = j.id ∧ q.id = r.id ∧
          ¬Keeps (changedGroups q.after) (changedGroups r.after)) = true) = true := by decide +kernel
  obtain ⟨s, first, ran⟩ := Transition.System.exists_of_any ran
  obtain ⟨u, second, j, memberJ, membership, q, memberQ, r, member, owned, same, lost⟩ :=
    Transition.System.exists_of_any ran
  refine lost ((holds s u ?_ ?_ j memberJ .add membership r member owned).1 q memberQ same)
  · exact .of_run (.start rfl) first Transition.System.meetsAlong_true
  · exact .of_run second Transition.System.meetsAlong_true

end OpenAduc.BulkJobs
