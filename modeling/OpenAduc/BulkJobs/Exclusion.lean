import OpenAduc.Lib.Exclusion
import OpenAduc.BulkJobs.WellFormed

namespace OpenAduc.BulkJobs
variable {Input Snap Env : Type}

namespace State
variable (s : State Input Snap)

/-- A job that may still write: not stopped, or stopped with rows still running. -/
def MayWrite (job : JobId) : Prop :=
  (∃ j ∈ s.jobs, j.id = job ∧ j.status ∈ openStatuses) ∨ s.HasRow job [.running]

instance (job : JobId) : Decidable (s.MayWrite job) :=
  inferInstanceAs (Decidable (_ ∨ _))

/-- One job is a revert of the other. -/
def Reverts (revert job : JobId) : Prop :=
  ∃ j ∈ s.jobs, j.id = revert ∧ j.revertsJobId = some job

instance (revert job : JobId) : Decidable (s.Reverts revert job) :=
  inferInstanceAs (Decidable (∃ _ ∈ _, _))

/-- A job and a revert of it never both may write, nor two reverts of one job. -/
abbrev Exclusive : Prop :=
  Exclusion.Exclusive s.Reverts s.MayWrite

/-- A retry of a revert finds the job it reverts stopped. -/
def RetriedApart : Action Input Env → Prop
  | .retry _ job => ∀ j ∈ s.jobs, j.id = job → ∀ reverted ∈ j.revertsJobId, ¬s.MayWrite reverted
  | _ => True

instance (a : Action Input Env) : Decidable (s.RetriedApart a) := by
  cases a <;> unfold RetriedApart <;> infer_instance

variable {s} {s' : State Input Snap}

theorem Reverts.of_links (links : s'.jobs.map JobRecord.link = s.jobs.map JobRecord.link) {u a : JobId} :
    s'.Reverts u a → s.Reverts u a := by
  rintro ⟨j, member, rfl, reverts⟩
  obtain ⟨i, old, same⟩ := Table.exists_of_map_eq links member
  obtain ⟨sameId, _, sameLink⟩ := JobRecord.link_eq.mp same
  exact ⟨i, old, sameId, sameLink.trans reverts⟩

theorem MayWrite.of_insert {actor : JobActor} {action : BulkJobKind} {reverts : Option JobId}
    {rows : List (BulkJobRowInput Input)} {job : JobId}
    (writes : (s.insert actor action reverts rows).MayWrite job) : s.MayWrite job ∨ job = s.nextJobId := by
  rcases writes with ⟨j, member, named, opened⟩ | ⟨r, member, owned, status⟩
  · rcases List.mem_append.mp member with old | new
    · exact .inl (.inl ⟨j, old, named, opened⟩)
    · cases List.mem_singleton.mp new
      exact .inr named.symm
  · rcases List.mem_append.mp member with old | new
    · exact .inl (.inr ⟨r, old, owned, status⟩)
    · obtain ⟨_, _, rfl⟩ := List.mem_map.mp new
      simp at status

theorem Reverts.of_insert {actor : JobActor} {action : BulkJobKind} {reverts : Option JobId}
    {rows : List (BulkJobRowInput Input)} {u a : JobId}
    (link : (s.insert actor action reverts rows).Reverts u a) :
    s.Reverts u a ∨ u = s.nextJobId ∧ reverts = some a := by
  obtain ⟨j, member, named, link⟩ := link
  rcases List.mem_append.mp member with old | new
  · exact .inl ⟨j, old, named, link⟩
  · cases List.mem_singleton.mp new
    exact .inr ⟨named.symm, link⟩

/-- No open revert, other than `except`, may still write. -/
theorem not_mayWrite_of_closed {reverted u : JobId} {except : Option JobId}
    (keyed : Table.Keyed JobRecord.id s.jobs)
    (closed : s.hasOpenRevert reverted except = false) (other : except ≠ some u)
    (link : s.Reverts u reverted) : ¬s.MayWrite u := by
  obtain ⟨revert, member, rfl, link⟩ := link
  rintro writes
  refine absurd (s.hasOpenRevert_iff.mpr ⟨revert, member, link, other, ?_⟩) (by simp [closed])
  rcases writes with ⟨j, memberJ, named, opened⟩ | running
  · cases keyed.eq_of_key memberJ member named
    exact .inl opened
  · exact .inr running

/-- A job granted a revert has stopped. -/
theorem not_mayWrite_of_granted {job : JobId} {locked : JobRecord} (keyed : Table.Keyed JobRecord.id s.jobs)
    (found : s.findJob job = some locked) (granted : s.refusal locked = none) : ¬s.MayWrite job := by
  obtain ⟨member, rfl⟩ := Table.find_mem found
  have stopped := (revertRefusal_eq_none.mp granted).2.2.1
  simp only [bulkJobStopped, Bool.decide_and, Bool.and_eq_true, decide_eq_true_eq,
    counts_running_eq_zero] at stopped
  rintro (⟨j, memberJ, named, opened⟩ | running)
  · cases keyed.eq_of_key memberJ member named
    rcases stopped.1 with status | status <;> simp [openStatuses, status] at opened
  · exact stopped.2 running

end State

variable {s s' : State Input Snap}

/-- The job a step inserts may write beside the others where no revert of
the job it reverts may, nor that job. -/
theorem exclusive_insert (wf : WellFormed s) (exclusive : s.Exclusive) {actor : JobActor}
    {action : BulkJobKind}
    {reverts : Option JobId} {rows : List (BulkJobRowInput Input)}
    (free : ∀ a, reverts = some a → a < s.nextJobId ∧ ¬s.MayWrite a ∧ ∀ u, s.Reverts u a → ¬s.MayWrite u) :
    (s.insert actor action reverts rows).Exclusive := by
  have fresh : ∀ {u}, ¬(s.insert actor action reverts rows).Reverts u s.nextJobId := by
    intro u link
    rcases link.of_insert with ⟨j, member, _, link⟩ | ⟨_, link⟩
    · exact absurd (wf.links j member _ link) (Nat.lt_irrefl _)
    · exact absurd (free _ link).1 (Nat.lt_irrefl _)
  refine exclusive.start (k := s.nextJobId) ?_ (fun a writes => writes.of_insert) fresh
    (fun u link => absurd link fresh) ?_
  · intro u a other link
    exact link.of_insert.resolve_right fun new => other new.1
  · intro a link
    rcases link.of_insert with ⟨j, member, named, _⟩ | ⟨_, reverted⟩
    · exact absurd named (wf.jobIds j member).ne
    · refine ⟨(free a reverted).2.1, fun u other linkU => (free a reverted).2.2 u ?_⟩
      exact linkU.of_insert.resolve_right fun new => other new.1

/-- A retry starts its job beside no revert of it, no other revert of the job
it reverts and, where the condition holds, not beside that job. -/
theorem exclusive_retry (wf : WellFormed s) (exclusive : s.Exclusive) {actor : JobActor} {job : JobId}
    {record : JobRecord} (found : s.findJob job = some record)
    (closed : s.hasOpenRevert (record.revertsJobId.getD record.id) (some job) = false)
    (apart : ∀ j ∈ s.jobs, j.id = job → ∀ reverted ∈ j.revertsJobId, ¬s.MayWrite reverted) :
    (s.retried actor job).Exclusive := by
  obtain ⟨member, rfl⟩ := Table.find_mem found
  have proper : ∀ {u}, s.Reverts u record.id → u ≠ record.id ∧ record.revertsJobId = none := by
    rintro u ⟨j, memberJ, rfl, link⟩
    have root := wf.flat j memberJ record member link
    refine ⟨fun same => ?_, root⟩
    cases wf.jobsKeyed.eq_of_key memberJ member same
    simp [root] at link
  have kept : (s.retried actor record.id).jobs.map JobRecord.link = s.jobs.map JobRecord.link :=
    Table.map_update fun _ _ => rfl
  have links : ∀ {u a}, (s.retried actor record.id).Reverts u a → s.Reverts u a := State.Reverts.of_links kept
  refine exclusive.start (k := record.id) (fun u a _ => links) ?_
    (fun self => (proper (links self)).1 rfl) ?_ ?_
  · intro a writes
    by_cases other : a = record.id
    · exact .inr other
    · refine .inl (writes.imp (fun opened => ?_) fun running => ?_)
      · exact Table.exists_of_update opened fun j _ met after => absurd (after.1.symm.trans met.1) other
      · exact Table.exists_of_update running fun r _ _ after => by simp at after
  · intro u link
    have ⟨other, root⟩ := proper (links link)
    rw [root] at closed
    exact State.not_mayWrite_of_closed wf.jobsKeyed closed (by simpa using Ne.symm other) (links link)
  · intro a link
    obtain ⟨j, memberJ, named, reverted⟩ := links link
    cases wf.jobsKeyed.eq_of_key memberJ member named
    rw [reverted] at closed
    refine ⟨apart record member rfl a reverted, fun u other linkU => ?_⟩
    exact State.not_mayWrite_of_closed wf.jobsKeyed closed (by simpa using Ne.symm other) (links linkU)

/-- Updates that open no job and start no row of one that may not write. -/
theorem exclusive_update (exclusive : s.Exclusive)
    (links : s'.jobs.map JobRecord.link = s.jobs.map JobRecord.link)
    (opened : ∀ a, (∃ j ∈ s'.jobs, j.id = a ∧ j.status ∈ openStatuses) → s.MayWrite a)
    (running : ∀ a, s'.HasRow a [.running] → s.MayWrite a) : s'.Exclusive :=
  exclusive.fewer (fun _ _ => State.Reverts.of_links links) fun a writes =>
    writes.elim (opened a) (running a)

/-- A step keeps a job and its reverts exclusive where a retried revert finds
its job stopped. -/
theorem exclusive_step (wf : WellFormed s) (exclusive : s.Exclusive) {runner : Runner Input Snap Env}
    {a : Action Input Env} (apart : s.RetriedApart a) (effect : Effect runner s a s') : s'.Exclusive := by
  cases effect with
  | memory move =>
    obtain ⟨jobs, rows, _⟩ := move.tables
    refine exclusive.fewer (fun u a => State.Reverts.of_links (by rw [jobs])) fun a writes => ?_
    simpa only [State.MayWrite, State.HasRow, jobs, rows] using writes
  | created => exact exclusive_insert wf exclusive (by simp)
  | discarded =>
    refine exclusive.fewer ?_ ?_
    · rintro u a ⟨j, member, link⟩
      exact ⟨j, (Table.mem_delete.mp member).1, link⟩
    · rintro a (⟨j, member, opened⟩ | ⟨r, member, running⟩)
      · exact .inl ⟨j, (Table.mem_delete.mp member).1, opened⟩
      · exact .inr ⟨r, (Table.mem_delete.mp member).1, running⟩
  | reverted _ found granted =>
    refine exclusive_insert wf exclusive fun a same => ?_
    cases Option.some.inj same
    refine ⟨wf.find_id_lt found, State.not_mayWrite_of_granted wf.jobsKeyed found granted, fun u link => ?_⟩
    have closed := (revertRefusal_eq_none.mp granted).2.2.2.1
    rw [(Table.find_mem found).2] at closed
    exact State.not_mayWrite_of_closed wf.jobsKeyed closed (by simp) link
  | retried found closed => exact exclusive_retry wf exclusive found closed apart
  | resumed =>
    refine exclusive_update exclusive (Table.map_update fun _ _ => rfl) (fun a opened => .inl ?_)
      fun _ => .inr
    exact Table.exists_of_update opened fun j _ met after => ⟨after.1, by simp [openStatuses, met.2]⟩
  | cancelled =>
    refine exclusive_update exclusive (Table.map_update fun _ _ => rfl) (fun a opened => .inl ?_)
      fun a running => .inr ?_
    · exact Table.exists_of_update opened fun j _ met after => ⟨after.1, met.2⟩
    · exact Table.exists_of_update running fun r _ _ after => by simp at after
  | swept =>
    refine exclusive_update exclusive (Table.map_update fun _ _ => rfl) (fun a opened => .inl ?_)
      fun _ => .inr
    refine Table.exists_of_update opened fun j _ met after => ⟨after.1, ?_⟩
    have status := met.1
    simp only [List.mem_cons, List.not_mem_nil, or_false] at status
    rcases status with status | status <;> simp [openStatuses, status]
  | interrupted =>
    refine exclusive_update exclusive rfl (fun _ => .inl) fun a running => .inr ?_
    exact Table.exists_of_update running fun r _ _ after => by simp at after
  | ran =>
    refine exclusive_update exclusive (Table.map_update fun _ _ => rfl) (fun a opened => .inl ?_)
      fun _ => .inr
    exact Table.exists_of_update opened fun j _ met after => ⟨after.1, by simp [openStatuses, met.2]⟩
  | beaten =>
    refine exclusive_update exclusive (Table.map_update fun _ _ => rfl) (fun a opened => .inl ?_)
      fun _ => .inr
    exact Table.exists_of_update opened fun j _ _ after => after
  | claimed at_ next =>
    refine exclusive_update exclusive rfl (fun _ => .inl) fun a running => ?_
    obtain ⟨memberRow, owned, _, ⟨j, member, named, status, _⟩, _⟩ := nextRow_claimable next
    obtain ⟨r, memberR, ⟨same, claimed⟩ | ⟨_, before⟩⟩ := Table.exists_update.mp running
    · cases wf.rowsKeyed.eq_of_key memberR memberRow same
      exact .inl ⟨j, member, named.trans (owned.symm.trans claimed.1), by simp [openStatuses, status]⟩
    · exact .inr ⟨r, memberR, before⟩
  | @recorded _ _ _ _ outcome =>
    refine exclusive_update exclusive rfl (fun _ => .inl) fun a running => .inr ?_
    refine Table.exists_of_update running fun r _ _ after => ?_
    exact absurd (List.mem_singleton.mp after.2) outcome.status_settled.2
  | reset =>
    refine exclusive_update exclusive rfl (fun _ => .inl) fun a running => .inr ?_
    exact Table.exists_of_update running fun r _ _ after => by simp at after
  | paused =>
    refine exclusive_update exclusive (Table.map_update fun _ _ => rfl) (fun a opened => .inl ?_)
      fun _ => .inr
    exact Table.exists_of_update opened fun j _ met after => ⟨after.1, by simp [openStatuses, met.2.2]⟩
  | finished =>
    refine exclusive_update exclusive (Table.map_update fun _ _ => rfl) (fun a opened => .inl ?_)
      fun _ => .inr
    exact Table.exists_of_update opened fun j _ _ after => by simp [openStatuses] at after

/-- In every run whose retries of reverts each find the job they revert
stopped, a job and a revert of it never both may write, nor two reverts of one job. -/
theorem exclusive_of_reach {runner : Runner Input Snap Env}
    (reach : (service runner).Reach State.RetriedApart s) : s.Exclusive := by
  refine reach.invariant ?_ fun _ _ _ previous exclusive apart taken =>
    exclusive_step (.of_reach previous) exclusive apart (effect_of_step taken)
  rintro _ rfl
  exact ⟨fun u a link => by simp [State.Reverts, State.empty] at link,
    fun u v a link => by simp [State.Reverts, State.empty] at link⟩

/-- A job finishes with a failed row, and a revert of it with one too. -/
def revertFails : List (Action Unit (RowResult Unit)) :=
  let row : BulkJobRowInput Unit := { targetId := some "user", input := (), after := none }
  let seen : JobRecord :=
    { id := 0, actor := operator, action := .userDisable, revertsJobId := none, status := .finished,
      pauseReason := none, runToken := none, heartbeatAt := 0, finishedAt := some 0 }
  .create operator .userDisable [row, row] :: wholeRun 0 0 [changed, refused] ++
    .revert operator seen [row] :: wholeRun 1 1 [refused]

theorem exclusive_revert_retried :
    ∃ s, (service told).run .empty (revertFails ++ [.retry operator 1]) = some s ∧ s.MayWrite 1 ∧
      s.Exclusive := by
  have ran : (((service told).run .empty (revertFails ++ [.retry operator 1])).any (·.MayWrite 1)) =
    true := by
    decide
  cases reached : (service told).run .empty (revertFails ++ [.retry operator 1]) with
  | none => simp [reached] at ran
  | some s =>
    have writes : s.MayWrite 1 := by simpa [reached] using ran
    have reach : (service told).Reach State.RetriedApart s := .of_run (.start rfl) reached (by decide +kernel)
    exact ⟨s, rfl, writes, exclusive_of_reach reach⟩

/-- Retrying the job and then the revert starts both: the revert's retry asks
after other reverts, never after the job it reverts. -/
theorem not_exclusive : ¬∀ s, (service told).Reachable s → s.Exclusive := by
  intro exclusive
  have ran : (((service told).run .empty (revertFails ++ [.retry operator 0, .retry operator 1])).any
      fun s => s.Reverts 1 0 ∧ s.MayWrite 1 ∧ s.MayWrite 0) = true := by decide
  obtain ⟨s, reach, reverts, revert, job⟩ := Transition.System.Reachable.exists_of_run (.start rfl) ran
  exact (exclusive s reach).apart reverts revert job

end OpenAduc.BulkJobs
