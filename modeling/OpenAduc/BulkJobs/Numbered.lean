import OpenAduc.BulkJobs.WellFormed

namespace OpenAduc.BulkJobs
variable {Input Snap Env : Type} {s s' : State Input Snap}

/-- A job's rows are numbered apart, as `bulk_job_rows` is keyed. -/
def State.Numbered (s : State Input Snap) : Prop :=
  Table.Keyed (fun r : RowRecord Input Snap => (r.jobId, r.ordinal)) s.rows

/-- Every step but storing a job keeps the places its rows have, or drops some. -/
theorem places_of_effect {runner : Runner Input Snap Env} {a : Action Input Env}
    (effect : Effect runner s a s') :
    (s'.rows.map RowRecord.place).Sublist (s.rows.map RowRecord.place) ∨
      ∃ actor action reverts rows, s' = s.insert actor action reverts rows := by
  have kept : s'.rows.map RowRecord.place = s.rows.map RowRecord.place →
      (s'.rows.map RowRecord.place).Sublist (s.rows.map RowRecord.place) ∨
        ∃ actor action reverts rows, s' = s.insert actor action reverts rows := by
    intro same
    rw [same]
    exact .inl (.refl _)
  cases effect with
  | memory move => exact kept (by rw [move.tables.2.1])
  | created => exact .inr ⟨_, _, _, _, rfl⟩
  | reverted => exact .inr ⟨_, _, _, _, rfl⟩
  | discarded => exact .inl (List.filter_sublist.map _)
  | retried => exact kept (Table.map_update fun _ _ => rfl)
  | cancelled => exact kept (Table.map_update fun _ _ => rfl)
  | interrupted => exact kept (Table.map_update fun _ _ => rfl)
  | claimed => exact kept (Table.map_update fun _ _ => rfl)
  | recorded => exact kept (Table.map_update fun _ _ => rfl)
  | reset => exact kept (Table.map_update fun _ _ => rfl)
  | _ => exact kept rfl

/-- A stored job's rows are numbered from none on. -/
theorem State.Numbered.inserted (numbered : s.Numbered) (wf : WellFormed s) {actor : JobActor}
    {action : BulkJobKind}
    {reverts : Option JobId} {rows : List (BulkJobRowInput Input)} :
    (s.insert actor action reverts rows).Numbered := by
  refine Table.Keyed.append numbered ?_ ?_
  · have indexes : (rows.zipIdx.map fun e => (s.nextJobId, e.2)).Nodup := by
      have apart : (rows.zipIdx.map Prod.snd).Nodup := by
        rw [List.zipIdx_map_snd]
        exact List.nodup_range' ..
      have pairs := List.Nodup.map (f := fun i : Nat => (s.nextJobId, i))
        (fun i j same => (Prod.mk.inj same).2) apart
      rw [List.map_map] at pairs
      exact pairs
    simpa [Table.Keyed, List.map_map, Function.comp_def] using indexes
  · intro r member q memberQ same
    obtain ⟨⟨row, i⟩, _, rfl⟩ := List.mem_map.mp memberQ
    obtain ⟨j, memberJ, named⟩ := wf.rowJobs r member
    have fresh : r.jobId = s.nextJobId := (Prod.mk.inj same).1
    exact absurd (named.trans fresh) (wf.jobIds j memberJ).ne

/-- In every state any run reaches, a job's rows are numbered apart. -/
theorem State.Numbered.of_reach {runner : Runner Input Snap Env}
    {meets : State Input Snap → Action Input Env → Prop}
    (reach : (service runner).Reach meets s) : s.Numbered := by
  refine reach.invariant ?_ ?_
  · rintro s rfl
    simp [State.Numbered, State.empty, Table.Keyed]
  · intro s t a reached numbered _ taken
    rcases places_of_effect (effect_of_step taken) with fewer | ⟨actor, action, reverts, rows, rfl⟩
    · have keys := fewer.map fun place : RowId × JobId × Nat × Option Nat => (place.2.1, place.2.2.1)
      simp only [List.map_map] at keys
      exact List.Nodup.sublist keys numbered
    · exact numbered.inserted (.of_reach reached)

/-- A bulk action's rows are stored with the accounts they are of. -/
def Action.NamesTargets (a : Action Input Env) : Prop :=
  ∀ actor action rows, a = .create actor action rows → canRevert action = true → ∀ row ∈ rows,
    row.targetId.isSome

/-- The rows of a job that can be reverted all name their account. -/
def State.Targeted (s : State Input Snap) : Prop :=
  ∀ r ∈ s.rows, ∀ j ∈ s.jobs, r.jobId = j.id → canRevert j.action = true → j.revertsJobId = none →
    r.targetId.isSome

theorem RowStep.targetId {a : Action Input Env} {r r' : RowRecord Input Snap} (step : RowStep s a r r')
    (named : r.targetId.isSome) : r'.targetId.isSome := by
  cases step with
  | recorded =>
    rw [State.recorded, Option.isSome_or]
    simp [named]
  | _ => exact named

/-- A bulk action's rows keep naming their accounts. -/
theorem State.Targeted.step (targeted : s.Targeted) (wf : WellFormed s) {runner : Runner Input Snap Env}
    {a : Action Input Env} (names : a.NamesTargets) (effect : Effect runner s a s') : s'.Targeted := by
  intro r' member j' memberJ owned revertable bulk
  rcases rowStep_of_effect wf.rowsKeyed effect r' member with ⟨r, old, step⟩ | fresh
  · have place := (RowRecord.place_eq.mp step.place).2.1
    obtain ⟨j, oldJ, named, kind⟩ := wf.job_before effect memberJ old (place.symm.trans owned)
    rw [JobRecord.kind, JobRecord.kind, Prod.mk.injEq] at kind
    refine step.targetId (targeted r old j oldJ ?_ ?_ ?_)
    · rw [← place, owned, named]
    · rw [kind.1]
      exact revertable
    · rw [kind.2]
      exact bulk
  · rcases link_of_effect effect j' memberJ with ⟨j, oldJ, link⟩ | ⟨_, stores⟩
    · have named : j.id = s.nextJobId := (JobRecord.link_eq.mp link).1.trans (owned.symm.trans fresh.jobId)
      exact absurd named (wf.jobIds j oldJ).ne
    · obtain ⟨row, stored, _, target, _⟩ := fresh.input
      rw [target]
      cases a with
      | create actor action rows =>
        have kind : j'.kind = (action, none) := stores
        have same : j'.action = action := congrArg Prod.fst kind
        exact names actor action rows rfl (same ▸ revertable) row (List.mem_of_getElem? stored)
      | revert =>
        have isRevert : j'.revertsJobId.isSome := stores
        rw [bulk] at isRevert
        cases isRevert
      | _ => exact stores.elim

/-- In every run whose bulk actions are stored with the accounts they are of, every row of one names
its account. -/
theorem State.Targeted.of_reach {runner : Runner Input Snap Env}
    {meets : State Input Snap → Action Input Env → Prop}
    (names : ∀ s a, meets s a → a.NamesTargets) (reach : (service runner).Reach meets s) : s.Targeted := by
  refine reach.invariant ?_ ?_
  · rintro s rfl r member
    cases member
  · intro s t a reached targeted met taken
    exact targeted.step (.of_reach reached) (names s a met) (effect_of_step taken)

end OpenAduc.BulkJobs
