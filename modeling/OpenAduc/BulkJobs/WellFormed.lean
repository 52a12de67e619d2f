import OpenAduc.BulkJobs.Steps

namespace OpenAduc.BulkJobs
variable {Input Snap Env : Type}

/-- What a job never changes: which one it is, what it does, and what it reverts. -/
def JobRecord.link (j : JobRecord) : JobId × BulkJobKind × Option JobId :=
  (j.id, j.action, j.revertsJobId)

theorem JobRecord.link_eq {j k : JobRecord} :
    j.link = k.link ↔ j.id = k.id ∧ j.action = k.action ∧ j.revertsJobId = k.revertsJobId := by
  simp [JobRecord.link]

/-- What a row never changes: which one it is, whose, and when it may run. -/
def RowRecord.place (r : RowRecord Input Snap) : RowId × JobId × Nat × Option Nat :=
  (r.id, r.jobId, r.ordinal, r.afterOrdinal)

theorem JobRecord.kind_eq {j k : JobRecord} (same : j.link = k.link) : j.kind = k.kind :=
  congrArg Prod.snd same

theorem RowRecord.place_eq {q r : RowRecord Input Snap} :
    q.place = r.place ↔ q.id = r.id ∧ q.jobId = r.jobId ∧ q.ordinal = r.ordinal ∧
      q.afterOrdinal = r.afterOrdinal := by
  simp [RowRecord.place]

theorem RowStep.place {s : State Input Snap} {a : Action Input Env} {r r' : RowRecord Input Snap}
    (step : RowStep s a r r') : r'.place = r.place := by
  cases step <;> rfl

theorem Run.claim_eq {run other : Run Input Snap} :
    run.claim = other.claim ↔ run.token = other.token ∧ run.job = other.job := by
  simp [Run.claim]

/-- Ids and tokens are given out once, rows and reverts name jobs given out,
and a revert is of a job that is none itself. -/
structure WellFormed (s : State Input Snap) : Prop where
  jobsKeyed : Table.Keyed JobRecord.id s.jobs
  rowsKeyed : Table.Keyed RowRecord.id s.rows
  runsKeyed : Table.Keyed Run.token s.runs
  jobIds : ∀ j ∈ s.jobs, j.id < s.nextJobId
  rowIds : ∀ r ∈ s.rows, r.id < s.nextRowId
  rowJobs : ∀ r ∈ s.rows, ∃ j ∈ s.jobs, j.id = r.jobId
  links : ∀ j ∈ s.jobs, ∀ k, j.revertsJobId = some k → k < s.nextJobId
  flat : ∀ j ∈ s.jobs, ∀ k ∈ s.jobs, j.revertsJobId = some k.id → k.revertsJobId = none
  jobTokens : ∀ j ∈ s.jobs, ∀ t, j.runToken = some t → t < s.nextToken
  rowTokens : ∀ r ∈ s.rows, ∀ t, r.runToken = some t → t < s.nextToken
  runTokens : ∀ run ∈ s.runs, run.token < s.nextToken

namespace WellFormed
variable {s s' : State Input Snap}

theorem empty : WellFormed (State.empty : State Input Snap) := by
  constructor <;> simp [State.empty, Table.Keyed]

/-- A step that adds and removes no record keeps the tables well formed where
the tokens it writes were given out. -/
theorem updated (wf : WellFormed s)
    (jobs : s'.jobs.map JobRecord.link = s.jobs.map JobRecord.link)
    (rows : s'.rows.map RowRecord.place = s.rows.map RowRecord.place)
    (runs : (s'.runs.map Run.claim).Sublist (s.runs.map Run.claim))
    (nextJobId : s'.nextJobId = s.nextJobId) (nextRowId : s'.nextRowId = s.nextRowId)
    (nextToken : s'.nextToken = s.nextToken)
    (jobTokens : ∀ j ∈ s'.jobs, ∀ t, j.runToken = some t → t < s.nextToken)
    (rowTokens : ∀ r ∈ s'.rows, ∀ t, r.runToken = some t → t < s.nextToken) : WellFormed s' where
  jobsKeyed := by
    have keys := congrArg (List.map Prod.fst) jobs
    simp only [List.map_map] at keys
    exact (congrArg List.Nodup keys).mpr wf.jobsKeyed
  rowsKeyed := by
    have keys := congrArg (List.map Prod.fst) rows
    simp only [List.map_map] at keys
    exact (congrArg List.Nodup keys).mpr wf.rowsKeyed
  runsKeyed := by
    have keys := runs.map Prod.fst
    simp only [List.map_map] at keys
    exact wf.runsKeyed.sublist keys
  jobIds j member := by
    obtain ⟨i, old, same⟩ := Table.exists_of_map_eq jobs member
    rw [nextJobId, ← (JobRecord.link_eq.mp same).1]
    exact wf.jobIds i old
  rowIds r member := by
    obtain ⟨q, old, same⟩ := Table.exists_of_map_eq rows member
    rw [nextRowId, ← (RowRecord.place_eq.mp same).1]
    exact wf.rowIds q old
  rowJobs r member := by
    obtain ⟨q, old, same⟩ := Table.exists_of_map_eq rows member
    obtain ⟨i, oldI, named⟩ := wf.rowJobs q old
    obtain ⟨j, memberJ, sameJ⟩ := Table.exists_of_map_eq jobs.symm oldI
    exact ⟨j, memberJ, (JobRecord.link_eq.mp sameJ).1.trans (named.trans (RowRecord.place_eq.mp same).2.1)⟩
  links j member k reverts := by
    obtain ⟨i, old, same⟩ := Table.exists_of_map_eq jobs member
    rw [nextJobId]
    exact wf.links i old k ((JobRecord.link_eq.mp same).2.2.trans reverts)
  flat j memberJ k memberK reverts := by
    obtain ⟨i, oldI, sameI⟩ := Table.exists_of_map_eq jobs memberJ
    obtain ⟨l, oldL, sameL⟩ := Table.exists_of_map_eq jobs memberK
    obtain ⟨idL, _, linkL⟩ := JobRecord.link_eq.mp sameL
    have linked : i.revertsJobId = some l.id := by
      rw [idL, (JobRecord.link_eq.mp sameI).2.2, reverts]
    exact linkL.symm.trans (wf.flat i oldI l oldL linked)
  jobTokens := nextToken ▸ jobTokens
  rowTokens := nextToken ▸ rowTokens
  runTokens run member := by
    obtain ⟨old, memberOld, same⟩ := Table.exists_of_map_sublist runs member
    rw [nextToken, ← (Run.claim_eq.mp same).1]
    exact wf.runTokens old memberOld

/-- A stored job's rows are numbered from the next row id. -/
theorem inserted (wf : WellFormed s) {actor : JobActor} {action : BulkJobKind} {reverts : Option JobId}
    {rows : List (BulkJobRowInput Input)}
    (linked : ∀ k, reverts = some k → k < s.nextJobId ∧ ∀ j ∈ s.jobs, j.id = k → j.revertsJobId = none) :
    WellFormed (s.insert actor action reverts rows) where
  jobsKeyed := by
    refine wf.jobsKeyed.append (by simp [Table.Keyed]) fun j member => ?_
    simpa using (wf.jobIds j member).ne
  rowsKeyed := by
    refine wf.rowsKeyed.append ?_ ?_
    · simp only [Table.Keyed, List.map_map]
      refine (List.nodup_map_iff_inj_on (List.Nodup.of_map Prod.snd ?_)).mpr ?_
      · rw [List.zipIdx_map_snd]
        exact List.nodup_range' ..
      · rintro ⟨x, i⟩ memberX ⟨y, j⟩ memberY same
        have index : i = j := by simpa using same
        subst index
        rw [List.mk_mem_zipIdx_iff_getElem?] at memberX memberY
        rw [Option.some.inj (memberX.symm.trans memberY)]
    · intro r member q memberQ
      obtain ⟨⟨row, i⟩, _, rfl⟩ := List.mem_map.mp memberQ
      exact ((wf.rowIds r member).trans_le (Nat.le_add_right _ _)).ne
  runsKeyed := wf.runsKeyed
  jobIds j member := by
    simp only [State.insert, List.mem_append, List.mem_singleton] at member ⊢
    rcases member with old | rfl
    · exact (wf.jobIds j old).trans (Nat.lt_succ_self _)
    · exact Nat.lt_succ_self _
  rowIds r member := by
    simp only [State.insert, List.mem_append, List.mem_map] at member ⊢
    rcases member with old | ⟨⟨row, i⟩, memberRow, rfl⟩
    · exact (wf.rowIds r old).trans_le (Nat.le_add_right _ _)
    · exact Nat.add_lt_add_left (List.snd_lt_of_mem_zipIdx memberRow) _
  rowJobs r member := by
    simp only [State.insert, List.mem_append, List.mem_map] at member ⊢
    rcases member with old | ⟨⟨row, i⟩, _, rfl⟩
    · obtain ⟨j, memberJ, named⟩ := wf.rowJobs r old
      exact ⟨j, .inl memberJ, named⟩
    · exact ⟨_, .inr List.mem_cons_self, rfl⟩
  links j member k link := by
    simp only [State.insert, List.mem_append, List.mem_singleton] at member ⊢
    rcases member with old | rfl
    · exact (wf.links j old k link).trans (Nat.lt_succ_self _)
    · exact (linked k link).1.trans (Nat.lt_succ_self _)
  flat j memberJ k memberK link := by
    simp only [State.insert, List.mem_append, List.mem_singleton] at memberJ memberK
    rcases memberK with oldK | rfl
    · rcases memberJ with oldJ | rfl
      · exact wf.flat j oldJ k oldK link
      · exact (linked k.id link).2 k oldK rfl
    · rcases memberJ with oldJ | rfl
      · exact absurd (wf.links j oldJ _ link) (Nat.lt_irrefl _)
      · exact absurd (linked _ link).1 (Nat.lt_irrefl _)
  jobTokens j member t held := by
    simp only [State.insert, List.mem_append, List.mem_singleton] at member
    rcases member with old | rfl
    · exact wf.jobTokens j old t held
    · cases held
  rowTokens r member t held := by
    simp only [State.insert, List.mem_append, List.mem_map] at member
    rcases member with old | ⟨⟨row, i⟩, _, rfl⟩
    · exact wf.rowTokens r old t held
    · cases held
  runTokens := wf.runTokens

/-- Deleting a job with its rows leaves the tables well formed. -/
theorem discarded (wf : WellFormed s) {job : JobId} : WellFormed (s.discarded job) where
  jobsKeyed := wf.jobsKeyed.delete
  rowsKeyed := wf.rowsKeyed.delete
  runsKeyed := wf.runsKeyed
  jobIds j member := wf.jobIds j (Table.mem_delete.mp member).1
  rowIds r member := wf.rowIds r (Table.mem_delete.mp member).1
  rowJobs r member := by
    obtain ⟨old, other⟩ := Table.mem_delete.mp member
    obtain ⟨j, memberJ, named⟩ := wf.rowJobs r old
    exact ⟨j, Table.mem_delete.mpr ⟨memberJ, fun same => other (named.symm.trans same)⟩, named⟩
  links j member := wf.links j (Table.mem_delete.mp member).1
  flat j memberJ k memberK := wf.flat j (Table.mem_delete.mp memberJ).1 k (Table.mem_delete.mp memberK).1
  jobTokens j member := wf.jobTokens j (Table.mem_delete.mp member).1
  rowTokens r member := wf.rowTokens r (Table.mem_delete.mp member).1
  runTokens := wf.runTokens

/-- A run that starts takes a token of its own. -/
theorem ran (wf : WellFormed s) {job : JobId} {record : JobRecord} : WellFormed (s.ran job record) where
  jobsKeyed := wf.jobsKeyed.update fun _ _ => rfl
  rowsKeyed := wf.rowsKeyed
  runsKeyed := by
    refine wf.runsKeyed.append (by simp [Table.Keyed]) fun run member => ?_
    simpa using (wf.runTokens run member).ne
  jobIds := Table.forall_update.mpr fun j member => ⟨fun _ => wf.jobIds j member, fun _ => wf.jobIds j member⟩
  rowIds := wf.rowIds
  rowJobs r member := by
    obtain ⟨j, memberJ, named⟩ := wf.rowJobs r member
    refine Table.exists_update.mpr ⟨j, memberJ, ?_⟩
    exact (Classical.em _).imp (fun met => ⟨met, named⟩) fun kept => ⟨kept, named⟩
  links := Table.forall_update.mpr fun j member => ⟨fun _ => wf.links j member, fun _ => wf.links j member⟩
  flat := by
    refine Table.forall_update.mpr fun j memberJ => ⟨fun _ => ?_, fun _ => ?_⟩ <;>
      exact Table.forall_update.mpr fun k memberK => ⟨fun _ => wf.flat j memberJ k memberK,
        fun _ => wf.flat j memberJ k memberK⟩
  jobTokens := by
    refine Table.forall_update.mpr fun j member => ⟨fun _ t held => ?_, fun _ t held => ?_⟩
    · cases Option.some.inj held
      exact Nat.lt_succ_self _
    · exact (wf.jobTokens j member t held).trans (Nat.lt_succ_self _)
  rowTokens r member t held := (wf.rowTokens r member t held).trans (Nat.lt_succ_self _)
  runTokens run member := by
    simp only [State.ran, List.mem_append, List.mem_singleton] at member ⊢
    rcases member with old | rfl
    · exact (wf.runTokens run old).trans (Nat.lt_succ_self _)
    · exact Nat.lt_succ_self _

theorem find_id_lt (wf : WellFormed s) {job : JobId} {record : JobRecord}
    (found : s.findJob job = some record) : job < s.nextJobId := by
  obtain ⟨member, rfl⟩ := Table.find_mem found
  exact wf.jobIds record member

theorem find_token_lt (wf : WellFormed s) {token : Token} {run : Run Input Snap}
    (found : s.findRun token = some run) : token < s.nextToken := by
  obtain ⟨member, rfl⟩ := Table.find_mem found
  exact wf.runTokens run member

/-- Only a job that is no revert itself is granted a revert. -/
theorem revert_linked (wf : WellFormed s) {job : JobId} {locked : JobRecord}
    (found : s.findJob job = some locked) (granted : s.refusal locked = none) :
    ∀ k, some job = some k → k < s.nextJobId ∧ ∀ j ∈ s.jobs, j.id = k → j.revertsJobId = none := by
  intro k same
  cases Option.some.inj same
  refine ⟨wf.find_id_lt found, fun j member named => ?_⟩
  have one : some j = some locked := (wf.jobsKeyed.find_iff.mpr ⟨member, named⟩).symm.trans found
  cases Option.some.inj one
  simpa using (revertRefusal_eq_none.mp granted).1

/-- Every step keeps the tables well formed. -/
theorem step (wf : WellFormed s) {runner : Runner Input Snap Env} {a : Action Input Env}
    (effect : Effect runner s a s') : WellFormed s' := by
  cases effect with
  | memory move =>
    obtain ⟨jobs, rows, nextJobId, nextRowId, nextToken, _, runs⟩ := move.tables
    refine wf.updated (by rw [jobs]) (by rw [rows]) runs nextJobId nextRowId nextToken ?_ ?_
    · rw [jobs]
      exact wf.jobTokens
    · rw [rows]
      exact wf.rowTokens
  | created => exact wf.inserted (by simp)
  | discarded => exact wf.discarded
  | reverted _ found granted => exact wf.inserted (wf.revert_linked found granted)
  | resumed =>
    refine wf.updated (Table.map_update fun _ _ => rfl) rfl (.refl _) rfl rfl rfl ?_ wf.rowTokens
    exact Table.forall_update.mpr fun j member =>
      ⟨fun _ => wf.jobTokens j member, fun _ => wf.jobTokens j member⟩
  | retried =>
    refine wf.updated (Table.map_update fun _ _ => rfl) (Table.map_update fun _ _ => rfl) (.refl _)
      rfl rfl rfl ?_ ?_
    · exact Table.forall_update.mpr fun j member =>
        ⟨fun _ => wf.jobTokens j member, fun _ => wf.jobTokens j member⟩
    · exact Table.forall_update.mpr fun r member =>
        ⟨fun _ => wf.rowTokens r member, fun _ => wf.rowTokens r member⟩
  | cancelled =>
    refine wf.updated (Table.map_update fun _ _ => rfl) (Table.map_update fun _ _ => rfl) (.refl _)
      rfl rfl rfl ?_ ?_
    · exact Table.forall_update.mpr fun j member => ⟨by simp, fun _ => wf.jobTokens j member⟩
    · exact Table.forall_update.mpr fun r member =>
        ⟨fun _ => wf.rowTokens r member, fun _ => wf.rowTokens r member⟩
  | swept =>
    refine wf.updated (Table.map_update fun _ _ => rfl) rfl (.refl _) rfl rfl rfl ?_ wf.rowTokens
    exact Table.forall_update.mpr fun j member => ⟨by simp, fun _ => wf.jobTokens j member⟩
  | interrupted =>
    refine wf.updated rfl (Table.map_update fun _ _ => rfl) (.refl _) rfl rfl rfl wf.jobTokens ?_
    exact Table.forall_update.mpr fun r member =>
      ⟨fun _ => wf.rowTokens r member, fun _ => wf.rowTokens r member⟩
  | ran => exact wf.ran
  | beaten =>
    refine wf.updated (Table.map_update fun _ _ => rfl) rfl (.refl _) rfl rfl rfl ?_ wf.rowTokens
    exact Table.forall_update.mpr fun j member =>
      ⟨fun _ => wf.jobTokens j member, fun _ => wf.jobTokens j member⟩
  | claimed at_ next =>
    have given := wf.find_token_lt (State.findWorker_some at_).1
    refine wf.updated rfl (Table.map_update fun _ _ => rfl) (by simp [State.claimedBy]) rfl rfl rfl
      wf.jobTokens ?_
    exact Table.forall_update.mpr fun r member =>
      ⟨fun _ t held => Option.some.inj held ▸ given, fun _ => wf.rowTokens r member⟩
  | recorded =>
    refine wf.updated rfl (Table.map_update fun _ _ => rfl) (by simp [State.written]) rfl rfl rfl
      wf.jobTokens ?_
    exact Table.forall_update.mpr fun r member =>
      ⟨fun _ => wf.rowTokens r member, fun _ => wf.rowTokens r member⟩
  | reset =>
    refine wf.updated rfl (Table.map_update fun _ _ => rfl) (by simp [State.written]) rfl rfl rfl
      wf.jobTokens ?_
    exact Table.forall_update.mpr fun r member =>
      ⟨fun _ => wf.rowTokens r member, fun _ => wf.rowTokens r member⟩
  | paused =>
    refine wf.updated (Table.map_update fun _ _ => rfl) rfl State.crash_claims rfl rfl rfl ?_ wf.rowTokens
    exact Table.forall_update.mpr fun j member => ⟨by simp, fun _ => wf.jobTokens j member⟩
  | finished =>
    refine wf.updated (Table.map_update fun _ _ => rfl) rfl State.crash_claims rfl rfl rfl ?_ wf.rowTokens
    exact Table.forall_update.mpr fun j member => ⟨by simp, fun _ => wf.jobTokens j member⟩

/-- The tables are well formed in every state any run reaches. -/
theorem of_reach {runner : Runner Input Snap Env} {meets : State Input Snap → Action Input Env → Prop}
    (reach : (service runner).Reach meets s) : WellFormed s :=
  reach.invariant (fun _ init => init ▸ WellFormed.empty) fun _ _ _ _ wf _ taken =>
    wf.step (effect_of_step taken)

end WellFormed

/-- What a step stores a job as: one of a bulk action or an import, or a revert. -/
def Action.Stores : Action Input Env → BulkJobKind × Option JobId → Prop
  | .create _ action _, kind => kind = (action, none)
  | .revert .., kind => kind.2.isSome
  | _, _ => False

/-- A job after a step was one before it, doing the same, or is just stored. -/
theorem link_of_effect {runner : Runner Input Snap Env} {s s' : State Input Snap} {a : Action Input Env}
    (effect : Effect runner s a s') :
    ∀ j' ∈ s'.jobs, (∃ j ∈ s.jobs, j.link = j'.link) ∨ j'.id = s.nextJobId ∧ a.Stores j'.kind := by
  have kept : s'.jobs.map JobRecord.link = s.jobs.map JobRecord.link →
      ∀ j' ∈ s'.jobs, (∃ j ∈ s.jobs, j.link = j'.link) ∨ j'.id = s.nextJobId ∧ a.Stores j'.kind :=
    fun links j' member => .inl (Table.exists_of_map_eq links member)
  have inserted : ∀ {actor action reverts} {rows : List (BulkJobRowInput Input)}, a.Stores (action, reverts) →
      ∀ j' ∈ (s.insert actor action reverts rows).jobs,
        (∃ j ∈ s.jobs, j.link = j'.link) ∨ j'.id = s.nextJobId ∧ a.Stores j'.kind := by
    intro actor action reverts rows stores j' member
    rcases List.mem_append.mp member with old | new
    · exact .inl ⟨j', old, rfl⟩
    · cases List.mem_singleton.mp new
      exact .inr ⟨rfl, stores⟩
  cases effect with
  | memory move => exact kept (by rw [move.tables.1])
  | created => exact inserted rfl
  | reverted => exact inserted rfl
  | discarded => exact fun j' member => .inl ⟨j', (Table.mem_delete.mp member).1, rfl⟩
  | resumed => exact kept (Table.map_update fun _ _ => rfl)
  | retried => exact kept (Table.map_update fun _ _ => rfl)
  | cancelled => exact kept (Table.map_update fun _ _ => rfl)
  | swept => exact kept (Table.map_update fun _ _ => rfl)
  | ran => exact kept (Table.map_update fun _ _ => rfl)
  | beaten => exact kept (Table.map_update fun _ _ => rfl)
  | paused => exact kept (Table.map_update fun _ _ => rfl)
  | finished => exact kept (Table.map_update fun _ _ => rfl)
  | _ => exact kept rfl

/-- The job of a row stored before a step was stored before it too, of the same kind. -/
theorem WellFormed.job_before {runner : Runner Input Snap Env} {s s' : State Input Snap} (wf : WellFormed s)
    {a : Action Input Env} (effect : Effect runner s a s') {j' : JobRecord} (member : j' ∈ s'.jobs)
    {r : RowRecord Input Snap} (old : r ∈ s.rows) (owned : r.jobId = j'.id) :
    ∃ j ∈ s.jobs, j.id = j'.id ∧ j.kind = j'.kind := by
  rcases link_of_effect effect j' member with ⟨j, memberJ, link⟩ | ⟨fresh, _⟩
  · exact ⟨j, memberJ, (JobRecord.link_eq.mp link).1, JobRecord.kind_eq link⟩
  · obtain ⟨k, memberK, named⟩ := wf.rowJobs r old
    exact absurd (named.trans (owned.trans fresh)) (wf.jobIds k memberK).ne

end OpenAduc.BulkJobs
