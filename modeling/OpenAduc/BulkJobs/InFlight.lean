import OpenAduc.BulkJobs.WellFormed

namespace OpenAduc.BulkJobs
variable {Input Snap Env : Type}

/-- The row a worker works on, as its claim left it. -/
def Worker.row : Worker Input Snap → Option (RowRecord Input Snap)
  | .running row => some row
  | .recording row _ => some row
  | .resetting row => some row
  | _ => none

@[simp] theorem row_afterRun {row : RowRecord Input Snap} {outcome : Option (RowOutcome Snap)} :
    (State.afterRun row outcome).row = some row := by
  cases outcome <;> rfl

namespace State
variable (s : State Input Snap)

/-- Where worker `w` of the run that claimed this is. -/
def At (claim : Token × JobRecord) (w : Nat) (worker : Worker Input Snap) : Prop :=
  ∃ run ∈ s.runs, run.claim = claim ∧ run.workers[w]? = some worker

/-- Worker `w` of the run that claimed this works on the row. -/
def Flies (claim : Token × JobRecord) (w : Nat) (row : RowRecord Input Snap) : Prop :=
  ∃ worker, s.At claim w worker ∧ worker.row = some row

/-- No job's run has this token, any more or yet. -/
def Lost (token : Token) : Prop :=
  ∀ j ∈ s.jobs, j.runToken ≠ some token

instance (token : Token) : Decidable (s.Lost token) :=
  inferInstanceAs (Decidable (∀ _ ∈ _, _))

variable {s} {s' : State Input Snap}

theorem at_of_findWorker {token : Token} {w : Nat} {run : Run Input Snap} {worker : Worker Input Snap}
    (at_ : s.findWorker token w = some (run, worker)) : run.token = token ∧ s.At run.claim w worker := by
  obtain ⟨found, here⟩ := findWorker_some at_
  obtain ⟨member, named⟩ := Table.find_mem found
  exact ⟨named, run, member, rfl, here⟩

theorem findWorker_of_at (keyed : Table.Keyed Run.token s.runs) {claim : Token × JobRecord} {w : Nat}
    {worker : Worker Input Snap} (here : s.At claim w worker) :
    ∃ run, run.claim = claim ∧ s.findWorker claim.1 w = some (run, worker) := by
  obtain ⟨run, member, rfl, here⟩ := here
  have found : s.findRun run.token = some run := keyed.find_iff.mpr ⟨member, rfl⟩
  exact ⟨run, rfl, by simp [findWorker, Run.claim, found, here]⟩

theorem flies_of_worker {token : Token} {w : Nat} {run : Run Input Snap} {worker : Worker Input Snap}
    {row : RowRecord Input Snap} (at_ : s.findWorker token w = some (run, worker))
    (works : worker.row = some row) :
    run.token = token ∧ s.Flies run.claim w row :=
  have ⟨named, here⟩ := at_of_findWorker at_
  ⟨named, worker, here, works⟩

/-- Telling a run something leaves its workers where they are. -/
theorem at_updateRun {token : Token} {set : Run Input Snap → Run Input Snap} {w : Nat}
    {claim : Token × JobRecord} {worker : Worker Input Snap}
    (here : (s.updateRun token set).At claim w worker)
    (claims : ∀ run, (set run).claim = run.claim) (workers : ∀ run, (set run).workers = run.workers) :
    s.At claim w worker := by
  obtain ⟨run', member, rfl, here⟩ := here
  obtain ⟨run, before, rfl⟩ := Table.mem_update.mp member
  split at here
  next theirs =>
    rw [if_pos theirs, claims]
    rw [workers] at here
    exact ⟨run, before, rfl, here⟩
  next others =>
    rw [if_neg others]
    exact ⟨run, before, rfl, here⟩

theorem at_setPause {token : Token} {reason : BulkJobPauseReason} {w : Nat} {claim : Token × JobRecord}
    {worker : Worker Input Snap} (here : (s.setPause token reason).At claim w worker) : s.At claim w worker :=
  at_updateRun here (fun _ => rfl) fun _ => rfl

/-- A worker moved on is where it was moved, and the others where they were. -/
theorem at_setWorker (keyed : Table.Keyed Run.token s.runs) {token : Token} {w v : Nat} {run : Run Input Snap}
    {old moved worker : Worker Input Snap} {claim : Token × JobRecord}
    (at_ : s.findWorker token w = some (run, old)) (here : (s.setWorker token w moved).At claim v worker) :
    s.At claim v worker ∧ (claim.1 = token → v ≠ w) ∨ claim = run.claim ∧ v = w ∧ worker = moved := by
  obtain ⟨run', member, rfl, here⟩ := here
  obtain ⟨other, before, rfl⟩ := Table.mem_update.mp member
  obtain ⟨memberRun, named⟩ := Table.find_mem (findWorker_some at_).1
  split at here
  next theirs =>
    cases keyed.eq_of_key before memberRun (theirs.trans named.symm)
    rw [if_pos theirs]
    by_cases same : v = w
    · subst same
      rw [List.getElem?_set_self'] at here
      obtain ⟨_, _, rfl⟩ := Option.map_eq_some_iff.mp here
      exact .inr ⟨rfl, rfl, rfl⟩
    · rw [List.getElem?_set_ne (Ne.symm same)] at here
      exact .inl ⟨⟨run, before, rfl, here⟩, fun _ => same⟩
  next others =>
    rw [if_neg others]
    exact .inl ⟨⟨other, before, rfl, here⟩, fun theirs => absurd theirs others⟩

/-- A run that ends leaves the others' workers where they are. -/
theorem at_crash {token : Token} {w : Nat} {claim : Token × JobRecord} {worker : Worker Input Snap}
    (here : (s.crash token).At claim w worker) : s.At claim w worker := by
  obtain ⟨run, member, rest⟩ := here
  exact ⟨run, (Table.mem_delete.mp member).1, rest⟩

/-- A worker after a step is where it was, or on no row, or on the row the step
claimed, or past the handler the step ended. -/
theorem at_of_effect (keyed : Table.Keyed Run.token s.runs) {runner : Runner Input Snap Env}
    {a : Action Input Env} (effect : Effect runner s a s') {claim : Token × JobRecord} {w : Nat}
    {worker : Worker Input Snap} (here : s'.At claim w worker) :
    s.At claim w worker ∨ worker.row = none ∨
      (∃ r ∈ s.rows, s.Claimable claim.1 claim.2.id r ∧ worker = .running (claimed claim.1 r) ∧
        s' = s.claimedBy claim.1 w r ∧ ∃ locked, a = .claimRow claim.1 w locked) ∨
      ∃ env row outcome pause, a = .runRow claim.1 w env ∧ s.At claim w (.running row) ∧
        judged (runner claim.2 row env) = (outcome, pause) ∧ worker = afterRun row outcome := by
  have idle : ∀ {token v run old moved}, s.findWorker token v = some (run, old) → moved.row = none →
      (s.setWorker token v moved).At claim w worker → s.At claim w worker ∨ worker.row = none := by
    intro token v run old moved at_ none here
    exact (at_setWorker keyed at_ here).imp (fun before => before.1) fun ⟨_, _, same⟩ => same ▸ none
  have handled : ∀ {token v run row env outcome pause}, s.findWorker token v = some (run, .running row) →
      judged (runner run.job row env) = (outcome, pause) →
      (s.setWorker token v (afterRun row outcome)).At claim w worker → s.At claim w worker ∨
        ∃ env' row outcome pause, (.runRow token v env : Action Input Env) = .runRow claim.1 w env' ∧
          s.At claim w (.running row) ∧ judged (runner claim.2 row env') = (outcome, pause) ∧
            worker = afterRun row outcome := by
    intro token v run row env outcome pause at_ judged here
    refine (at_setWorker keyed at_ here).imp (fun before => before.1) ?_
    rintro ⟨rfl, rfl, rfl⟩
    obtain ⟨named, there⟩ := at_of_findWorker at_
    exact ⟨env, row, outcome, pause, by rw [← named]; rfl, there, judged, rfl⟩
  cases effect with
  | memory move =>
    cases move with
    | ticked => exact .inl here
    | audited => exact .inl here
    | stopped => exact .inl (at_updateRun here (fun _ => rfl) fun _ => rfl)
    | crashed => exact .inl (at_crash here)
    | looped at_ => exact (idle at_ (by split <;> rfl) here).imp_right .inl
    | elevated at_ => exact (idle at_ (by split <;> rfl) here).imp_right .inl
    | stepUp at_ => exact (idle at_ rfl (at_setPause here)).imp_right .inl
    | failed at_ => exact (idle at_ rfl (at_setPause here)).imp_right .inl
    | looked at_ => exact (idle at_ rfl here).imp_right .inl
    | waited at_ => exact (idle at_ (by split <;> rfl) here).imp_right .inl
    | handled at_ judged => exact (handled at_ judged here).imp_right fun now => .inr (.inr now)
    | unanswered at_ judged =>
      exact (handled at_ judged (at_setPause here)).imp_right fun now => .inr (.inr now)
  | ran =>
    obtain ⟨run, member, rfl, here⟩ := here
    rcases List.mem_append.mp member with old | new
    · exact .inl ⟨run, old, rfl, here⟩
    · cases List.mem_singleton.mp new
      cases (List.mem_replicate.mp (List.mem_of_getElem? here)).2
      exact .inr (.inl rfl)
  | @claimed token v locked run r at_ next =>
    rcases at_setWorker keyed at_ here with before | ⟨rfl, rfl, rfl⟩
    · exact .inl before.1
    · obtain ⟨memberR, claimable⟩ := nextRow_claimable next
      have named := (Table.find_mem (findWorker_some at_).1).2
      subst named
      exact .inr (.inr (.inl ⟨r, memberR, claimable, rfl, rfl, locked, rfl⟩))
  | recorded at_ => exact (idle at_ rfl here).imp_right .inl
  | reset at_ => exact (idle at_ rfl here).imp_right .inl
  | paused => exact .inl (at_crash here)
  | finished => exact .inl (at_crash here)
  | _ => exact .inl here

/-- A row in flight was in flight before the step, or the step claimed it. -/
theorem flies_of_effect (keyed : Table.Keyed Run.token s.runs) {runner : Runner Input Snap Env}
    {a : Action Input Env} (effect : Effect runner s a s') {claim : Token × JobRecord} {w : Nat}
    {row : RowRecord Input Snap} (flies : s'.Flies claim w row) :
    s.Flies claim w row ∨ ∃ r ∈ s.rows, s.Claimable claim.1 claim.2.id r ∧ row = claimed claim.1 r ∧
      s' = s.claimedBy claim.1 w r ∧ ∃ locked, a = .claimRow claim.1 w locked := by
  obtain ⟨worker, here, works⟩ := flies
  rcases at_of_effect keyed effect here with before | none | ⟨r, member, claimable, rfl, taken⟩ |
    ⟨_, row', outcome, _, _, before, _, rfl⟩
  · exact .inl ⟨worker, before, works⟩
  · cases none.symm.trans works
  · exact .inr ⟨r, member, claimable, (Option.some.inj works).symm, taken⟩
  · exact .inl ⟨_, before, row_afterRun.symm.trans works⟩

/-- A token given out that no job has is never a job's again. -/
theorem lost_of_effect {runner : Runner Input Snap Env} {a : Action Input Env} (effect : Effect runner s a s')
    {t : Token} (given : t < s.nextToken) (lost : s.Lost t) : s'.Lost t := by
  intro j' member held
  rcases token_of_effect effect j' member held with ⟨j, old, _, heldBefore, _⟩ | ⟨rfl, _⟩
  · exact lost j old heldBefore
  · exact absurd given (Nat.lt_irrefl _)

/-- What holds of the runs and the rows they have in flight: a job's run token
is that of a run of it, and the job is running; a run has its job's action; and
a row in flight keeps its place and, until its run loses the job, its token,
with one worker on it. -/
structure InFlight (s : State Input Snap) : Prop where
  running : ∀ j ∈ s.jobs, ∀ t, j.runToken = some t → j.status = .running
  owner : ∀ run ∈ s.runs, ∀ j ∈ s.jobs, j.runToken = some run.token → j.id = run.job.id
  acts : ∀ run ∈ s.runs, run.job.id < s.nextJobId ∧ ∀ j ∈ s.jobs, j.id = run.job.id → j.link = run.job.link
  place : ∀ c w row, s.Flies c w row → row.jobId = c.2.id ∧ row.id < s.nextRowId ∧
    ∀ r ∈ s.rows, r.id = row.id → r.place = row.place
  token : ∀ c w row, s.Flies c w row → ∀ r ∈ s.rows, r.id = row.id → r.runToken = some c.1 ∨ s.Lost c.1
  pending : ∀ c w row, s.Flies c w row → ∀ r ∈ s.rows, r.id = row.id → r.status = .pending → s.Lost c.1
  single : ∀ c v w row row', s.Flies c v row → s.Flies c w row' → row.id = row'.id → v = w

/-- Once its row is written, a worker flies no row. -/
theorem landed (keyed : Table.Keyed Run.token s.runs) {runner : Runner Input Snap Env}
    {token : Token} {w v : Nat}
    (effect : Effect runner s (.record token w) s') {claim : Token × JobRecord} {row : RowRecord Input Snap}
    (flies : s'.Flies claim v row) : claim.1 = token → v ≠ w := by
  obtain ⟨worker, here, works⟩ := flies
  cases effect with
  | memory move => cases move
  | recorded at_ =>
    rcases at_setWorker keyed at_ here with before | ⟨_, _, rfl⟩
    · exact before.2
    · cases works
  | reset at_ =>
    rcases at_setWorker keyed at_ here with before | ⟨_, _, rfl⟩
    · exact before.2
    · cases works

theorem claim_eq (keyed : Table.Keyed Run.token s.runs) {c d : Token × JobRecord} {v w : Nat}
    {row row' : RowRecord Input Snap} (flies : s.Flies c v row) (flies' : s.Flies d w row')
    (same : c.1 = d.1) :
    c = d := by
  obtain ⟨_, ⟨run, member, rfl, _⟩, _⟩ := flies
  obtain ⟨_, ⟨other, memberOther, rfl, _⟩, _⟩ := flies'
  rw [keyed.eq_of_key member memberOther same]

namespace InFlight

theorem empty : InFlight (State.empty : State Input Snap) := by
  constructor <;> simp [State.empty, Flies, At]

theorem row_claimedBy (keyed : Table.Keyed RowRecord.id s.rows) {t : Token} {w : Nat}
    {r r' : RowRecord Input Snap} (member : r ∈ s.rows) (after : r' ∈ (s.claimedBy t w r).rows)
    (named : r'.id = r.id) : r' = claimed t r := by
  obtain ⟨q, old, rfl⟩ := Table.mem_update.mp after
  split at named
  next same => rw [if_pos same, keyed.eq_of_key old member same]
  next other => exact absurd named other

theorem claim_lt (wf : WellFormed s) {c : Token × JobRecord} {w : Nat} {row : RowRecord Input Snap}
    (flies : s.Flies c w row) : c.1 < s.nextToken := by
  obtain ⟨_, ⟨run, member, rfl, _⟩, _⟩ := flies
  exact wf.runTokens run member

/-- A row one of a running job's rows, in flight for another run, tells that run lost the job. -/
theorem lost_of_holder (fly : InFlight s) (wf : WellFormed s) {c : Token × JobRecord} {w : Nat}
    {row : RowRecord Input Snap} (flies : s.Flies c w row) {j : JobRecord} (member : j ∈ s.jobs)
    (job : j.id = row.jobId) (other : j.runToken ≠ some c.1) : s.Lost c.1 := by
  intro k memberK held
  obtain ⟨_, ⟨run, memberRun, rfl, _⟩, _⟩ := id flies
  have named := fly.owner run memberRun k memberK held
  have same := wf.jobsKeyed.eq_of_key memberK member
    (named.trans ((fly.place _ w row flies).1.symm.trans job.symm))
  exact other (same ▸ held)

/-- The row a run's worker writes is in flight for no other worker of the run. -/
theorem written_other (fly : InFlight s) (wf : WellFormed s) {runner : Runner Input Snap Env} {token : Token}
    {v w : Nat} (effect : Effect runner s (.record token v) s') {run : Run Input Snap}
    {worker : Worker Input Snap}
    {landing row : RowRecord Input Snap} (at_ : s.findWorker token v = some (run, worker))
    (works : worker.row = some landing) {c : Token × JobRecord} (before : s.Flies c w row)
    (after : s'.Flies c w row) (same : row.id = landing.id) : c.1 ≠ token := by
  intro mine
  have ⟨named, lander⟩ := flies_of_worker at_ works
  cases claim_eq wf.runsKeyed lander before (named.trans mine.symm)
  exact landed wf.runsKeyed effect after named (fly.single _ w v row landing before lander same)

/-- What flies for a run is under its token, or the run has lost its job. -/
theorem token_step (fly : InFlight s) (wf : WellFormed s) {runner : Runner Input Snap Env}
    {a : Action Input Env}
    (effect : Effect runner s a s') {c : Token × JobRecord} {w : Nat} {row : RowRecord Input Snap}
    (flies : s'.Flies c w row) : ∀ r ∈ s'.rows, r.id = row.id → r.runToken = some c.1 ∨ s'.Lost c.1 := by
  intro r' member named
  rcases flies_of_effect wf.runsKeyed effect flies with before | ⟨r₀, member₀, _, rfl, rfl, _⟩
  · rcases rowStep_of_effect wf.rowsKeyed effect r' member with ⟨r, old, step⟩ | fresh
    · have same := (RowRecord.place_eq.mp step.place).1.symm.trans named
      have kept := (fly.token c w row before r old same).imp_right
        (lost_of_effect effect (claim_lt wf before))
      cases step with
      | @claimed token _ _ _ _ _ claimable =>
        obtain ⟨owned, _, ⟨j, memberJ, namedJ, _, held⟩, _⟩ := claimable
        by_cases theirs : token = c.1
        · exact .inl (theirs ▸ rfl)
        · refine .inr (lost_of_effect effect (claim_lt wf before) ?_)
          have job := (RowRecord.place_eq.mp ((fly.place c w row before).2.2 r old same)).2.1
          refine fly.lost_of_holder wf before memberJ (namedJ.trans (owned.symm.trans job))
            fun own => theirs ?_
          exact Option.some.inj (held.symm.trans own)
      | _ => exact kept
    · exact absurd (named ▸ fresh.id) (Nat.not_le.mpr (fly.place c w row before).2.1)
  · rw [row_claimedBy wf.rowsKeyed member₀ member named]
    exact .inl rfl

/-- A row its run works on is only pending again once the run lost the job. -/
theorem pending_step (fly : InFlight s) (wf : WellFormed s) {runner : Runner Input Snap Env}
    {a : Action Input Env} (effect : Effect runner s a s') {c : Token × JobRecord} {w : Nat}
    {row : RowRecord Input Snap} (flies : s'.Flies c w row) :
    ∀ r ∈ s'.rows, r.id = row.id → r.status = .pending → s'.Lost c.1 := by
  intro r' member named status
  rcases flies_of_effect wf.runsKeyed effect flies with before | ⟨r₀, member₀, _, rfl, rfl, _⟩
  · have given := claim_lt wf before
    rcases rowStep_of_effect wf.rowsKeyed effect r' member with ⟨r, old, step⟩ | fresh
    · have same := (RowRecord.place_eq.mp step.place).1.symm.trans named
      have job := (RowRecord.place_eq.mp ((fly.place c w row before).2.2 r old same)).2.1
      cases step with
      | same => exact lost_of_effect effect given (fly.pending c w row before r' old same status)
      | retried retriable =>
        obtain ⟨j, memberJ, namedJ, stopped, _⟩ := retriable
        refine lost_of_effect effect given
          (fly.lost_of_holder wf before memberJ (namedJ.trans job) fun held => ?_)
        rw [fly.running j memberJ c.1 held] at stopped
        simp at stopped
      | reset at_ lands theirs =>
        rcases fly.token c w row before r old same with held | lost
        · have mine := Option.some.inj (held.symm.trans theirs)
          exact absurd mine (fly.written_other wf effect at_ rfl before flies (same.symm.trans lands))
        · exact lost_of_effect effect given lost
      | skipped => cases status
      | interrupted => cases status
      | claimed => cases status
      | recorded => exact absurd status (RowOutcome.status_settled _).1
    · exact absurd (named ▸ fresh.id) (Nat.not_le.mpr (fly.place c w row before).2.1)
  · rw [row_claimedBy wf.rowsKeyed member₀ member named] at status
    cases status

theorem single_step (fly : InFlight s) (wf : WellFormed s) {runner : Runner Input Snap Env}
    {a : Action Input Env} (effect : Effect runner s a s') {c : Token × JobRecord} {v w : Nat}
    {row row' : RowRecord Input Snap} (flies : s'.Flies c v row) (flies' : s'.Flies c w row')
    (same : row.id = row'.id) : v = w := by
  have alone : ∀ r ∈ s.rows, s.Claimable c.1 c.2.id r → ∀ {v row}, s.Flies c v row → r.id ≠ row.id := by
    intro r member ⟨_, status, ⟨j, memberJ, _, _, held⟩, _⟩ v row before named
    exact fly.pending c v row before r member named status j memberJ held
  rcases flies_of_effect wf.runsKeyed effect flies with before | ⟨r, member, claimable, rfl, _, _, rfl⟩ <;>
    rcases flies_of_effect wf.runsKeyed effect
      flies' with before' | ⟨r', member', claimable', rfl, _, _, taken⟩
  · exact fly.single c v w row row' before before' same
  · exact absurd same.symm (alone r' member' claimable' before)
  · exact absurd same (alone r member claimable before')
  · exact (Action.claimRow.inj taken).2.1

/-- Every effect keeps what is in flight in order. -/
theorem step (fly : InFlight s) (wf : WellFormed s) {runner : Runner Input Snap Env} {a : Action Input Env}
    (effect : Effect runner s a s') : InFlight s' where
  running j' member t held := by
    rcases token_of_effect effect j' member held with ⟨j, old, _, heldBefore, kept⟩ | ⟨_, status, _⟩
    · exact kept (fly.running j old t heldBefore)
    · exact status
  owner run' memberRun j' member held := by
    rcases token_of_effect effect j' member
      held with ⟨j, old, named, heldBefore, _⟩ | ⟨fresh, _, record, named, rfl⟩
    · rcases claim_of_effect effect run' memberRun with ⟨run, oldRun, same⟩ | ⟨fresh, _⟩
      · obtain ⟨token, job⟩ := Run.claim_eq.mp same
        rw [← named, ← job]
        exact fly.owner run oldRun j old (token ▸ heldBefore)
      · exact absurd (fresh ▸ wf.jobTokens j old _ heldBefore) (Nat.lt_irrefl _)
    · rcases List.mem_append.mp memberRun with old | new
      · exact absurd fresh (wf.runTokens run' old).ne
      · cases List.mem_singleton.mp new
        exact named.symm
  acts run' memberRun := by
    rcases claim_of_effect effect run' memberRun with ⟨run, oldRun, same⟩ | ⟨_, record, found, started⟩
    · rw [← (Run.claim_eq.mp same).2]
      obtain ⟨given, acts⟩ := fly.acts run oldRun
      refine ⟨given.trans_le (nextJobId_le effect), fun j' member named => ?_⟩
      rcases link_of_effect effect j' member with ⟨j, old, link⟩ | ⟨fresh, _⟩
      · rw [← link]
        exact acts j old ((JobRecord.link_eq.mp link).1.trans named)
      · exact absurd (fresh.symm.trans named) given.ne'
    · rw [started]
      have given := wf.jobIds record found
      refine ⟨given.trans_le (nextJobId_le effect), fun j' member named => ?_⟩
      rcases link_of_effect effect j' member with ⟨j, old, link⟩ | ⟨fresh, _⟩
      · rw [← link, wf.jobsKeyed.eq_of_key old found ((JobRecord.link_eq.mp link).1.trans named)]
        rfl
      · exact absurd (fresh.symm.trans named) given.ne'
  place c w row flies := by
    rcases flies_of_effect wf.runsKeyed effect flies with before | ⟨r₀, member₀, claimable, rfl, _⟩
    · obtain ⟨job, bound, kept⟩ := fly.place c w row before
      refine ⟨job, bound.trans_le (nextRowId_le effect), fun r' member named => ?_⟩
      rcases rowStep_of_effect wf.rowsKeyed effect r' member with ⟨r, old, step⟩ | fresh
      · have same := step.place
        exact same.trans (kept r old ((RowRecord.place_eq.mp same).1.symm.trans named))
      · exact absurd (named ▸ fresh.id) (Nat.not_le.mpr bound)
    · have bound : r₀.id < s.nextRowId := wf.rowIds r₀ member₀
      refine ⟨claimable.1, bound.trans_le (nextRowId_le effect), fun r' member named => ?_⟩
      rcases rowStep_of_effect wf.rowsKeyed effect r' member with ⟨r, old, step⟩ | fresh
      · have same := step.place
        cases wf.rowsKeyed.eq_of_key old member₀ ((RowRecord.place_eq.mp same).1.symm.trans named)
        exact same
      · exact absurd (named ▸ fresh.id) (Nat.not_le.mpr bound)
  token _ _ _ := fly.token_step wf effect
  pending _ _ _ := fly.pending_step wf effect
  single _ _ _ _ _ := fly.single_step wf effect

theorem of_reach {runner : Runner Input Snap Env} {meets : State Input Snap → Action Input Env → Prop}
    (reach : (service runner).Reach meets s) : InFlight s :=
  reach.invariant (fun _ init => init ▸ InFlight.empty) fun _ _ _ previous fly _ taken =>
    fly.step (.of_reach previous) (effect_of_step taken)

end InFlight
end State
end OpenAduc.BulkJobs
