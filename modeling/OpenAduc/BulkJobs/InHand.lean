import OpenAduc.BulkJobs.InFlight

namespace OpenAduc.BulkJobs
variable {Input Snap Env : Type}

/-- The job a step claims for a new run. -/
def Action.claims : Action Input Env → Option JobId
  | .run job => some job
  | _ => none

namespace State
variable (s : State Input Snap)

/-- The row is in the hands of a worker of the run that claimed it. -/
def InHand (r : RowRecord Input Snap) : Prop :=
  ∃ run ∈ s.runs, r.runToken = some run.token ∧ ∃ worker ∈ run.workers,
    worker.row.map RowRecord.id = some r.id

instance (r : RowRecord Input Snap) : Decidable (s.InHand r) :=
  inferInstanceAs (Decidable (∃ _ ∈ _, _))

/-- The rows whose workers a step ends before they are written, each with its
run's token: the process dies, or the worker throws. -/
def dropped : Action Input Env → List (Token × RowId)
  | .crash token =>
    (s.runs.filter fun run => run.token = token).flatMap fun run =>
      run.workers.filterMap fun worker => worker.row.map fun row => (token, row.id)
  | .workerFails token w =>
    (s.findWorker token w).toList.filterMap fun found => found.2.row.map fun row => (token, row.id)
  | _ => []

variable {s} {s' : State Input Snap}

/-- A step that puts a row back ends no worker. -/
theorem dropped_of_putsBack {a : Action Input Env} {p : Token × RowRecord Input Snap}
    (putsBack : p ∈ s.putsBack a) :
    s.dropped a = [] := by
  cases a <;> first | rfl | cases putsBack

theorem inHand_iff {r : RowRecord Input Snap} :
    s.InHand r ↔ ∃ c w row, s.Flies c w row ∧ r.runToken = some c.1 ∧ row.id = r.id := by
  constructor
  · rintro ⟨run, member, held, worker, works, its⟩
    obtain ⟨row, on, same⟩ := Option.map_eq_some_iff.mp its
    obtain ⟨w, at_⟩ := List.mem_iff_getElem?.mp works
    exact ⟨run.claim, w, row, ⟨worker, ⟨run, member, rfl, at_⟩, on⟩, held, same⟩
  · rintro ⟨_, w, row, ⟨worker, ⟨run, member, rfl, at_⟩, on⟩, held, same⟩
    exact ⟨run, member, held, worker, List.mem_of_getElem? at_, by rw [on, Option.map_some, same]⟩

/-- Telling a run something leaves what its workers work on. -/
theorem flies_updateRun {token : Token} {set : Run Input Snap → Run Input Snap}
    {c : Token × JobRecord} {w : Nat}
    {row : RowRecord Input Snap} (flies : s.Flies c w row) (claims : ∀ run, (set run).claim = run.claim)
    (workers : ∀ run, (set run).workers = run.workers) : (s.updateRun token set).Flies c w row := by
  obtain ⟨worker, ⟨run, member, rfl, here⟩, on⟩ := flies
  by_cases named : run.token = token
  · refine ⟨worker, ⟨set run, Table.mem_update.mpr ⟨run, member, if_pos named⟩, claims run, ?_⟩, on⟩
    rw [workers]
    exact here
  · exact ⟨worker, ⟨run, Table.mem_update.mpr ⟨run, member, if_neg named⟩, rfl, here⟩, on⟩

/-- A worker moved on leaves the others what they work on. -/
theorem flies_setWorker (keyed : Table.Keyed Run.token s.runs) {token : Token} {w v : Nat}
    {run : Run Input Snap}
    {old moved : Worker Input Snap} {c : Token × JobRecord} {row : RowRecord Input Snap}
    (at_ : s.findWorker token v = some (run, old)) (flies : s.Flies c w row) :
    (s.setWorker token v moved).Flies c w row ∨ c = run.claim ∧ w = v ∧ old.row = some row := by
  obtain ⟨worker, ⟨other, member, rfl, here⟩, on⟩ := flies
  obtain ⟨found, there⟩ := findWorker_some at_
  obtain ⟨memberRun, named⟩ := Table.find_mem found
  by_cases theirs : other.token = token
  · have same : other = run := keyed.eq_of_key member memberRun (theirs.trans named.symm)
    subst same
    by_cases mine : w = v
    · subst mine
      rw [there] at here
      cases Option.some.inj here
      exact .inr ⟨rfl, rfl, on⟩
    · refine .inl ⟨worker, ⟨_, Table.mem_update.mpr ⟨other, member, if_pos theirs⟩, rfl, ?_⟩, on⟩
      rw [List.getElem?_set_ne (Ne.symm mine)]
      exact here
  · exact .inl ⟨worker, ⟨other, Table.mem_update.mpr ⟨other, member, if_neg theirs⟩, rfl, here⟩, on⟩

theorem flies_crash {token : Token} {c : Token × JobRecord} {w : Nat} {row : RowRecord Input Snap}
    (flies : s.Flies c w row) (other : c.1 ≠ token) : (s.crash token).Flies c w row := by
  obtain ⟨worker, ⟨run, member, rfl, here⟩, on⟩ := flies
  exact ⟨worker, ⟨run, Table.mem_delete.mpr ⟨member, other⟩, rfl, here⟩, on⟩

/-- A run whose workers are done works on no row. -/
theorem flies_not_ended (keyed : Table.Keyed Run.token s.runs) {token : Token} {run : Run Input Snap}
    (found : s.findRun token = some run) (ended : run.workers.all Worker.isDone = true)
    {c : Token × JobRecord} {w : Nat}
    {row : RowRecord Input Snap} (flies : s.Flies c w row) : c.1 ≠ run.token := by
  obtain ⟨worker, ⟨other, member, rfl, here⟩, on⟩ := flies
  intro same
  rw [keyed.eq_of_key member (Table.find_mem found).1 same] at here
  have done := List.all_eq_true.mp ended worker (List.mem_of_getElem? here)
  cases worker <;> simp [Worker.isDone] at done
  cases on

theorem dropped_crash {token : Token} {c : Token × JobRecord} {w : Nat} {row : RowRecord Input Snap}
    (flies : s.Flies c w row) (mine : c.1 = token) :
    (c.1, row.id) ∈ s.dropped (.crash token : Action Input Env) := by
  obtain ⟨worker, ⟨run, member, rfl, here⟩, on⟩ := flies
  have named : run.token = token := mine
  simp only [dropped, List.mem_flatMap, List.mem_filter, decide_eq_true_eq, List.mem_filterMap]
  exact ⟨run, ⟨member, named⟩, worker, List.mem_of_getElem? here, by simp [on, Run.claim, named]⟩

/-- A row a worker works on is still so after a step that neither writes it nor drops it. -/
theorem flies_after (keyed : Table.Keyed Run.token s.runs) {runner : Runner Input Snap Env}
    {a : Action Input Env}
    (effect : Effect runner s a s') {c : Token × JobRecord} {w : Nat} {row : RowRecord Input Snap}
    (flies : s.Flies c w row) : s'.Flies c w row ∨ (c.1, row.id) ∈ s.dropped a ∨ a = .record c.1 w := by
  have moves : ∀ {token v run old moved}, s.findWorker token v = some (run, old) → old.row = none →
      (s.setWorker token v moved).Flies c w row := by
    intro token v run old moved at_ idle
    rcases flies_setWorker keyed at_ flies with kept | ⟨_, _, on⟩
    · exact kept
    · cases idle.symm.trans on
  have goesOn : ∀ {token v run row' outcome}, s.findWorker token v = some (run, .running row') →
      (s.setWorker token v (afterRun row' outcome)).Flies c w row := by
    intro token v run row' outcome at_
    rcases flies_setWorker keyed at_ flies with kept | ⟨rfl, rfl, on⟩
    · exact kept
    · cases Option.some.inj on
      obtain ⟨found, there⟩ := findWorker_some at_
      obtain ⟨member, named⟩ := Table.find_mem found
      refine ⟨afterRun row outcome, ⟨_, Table.mem_update.mpr ⟨run, member, if_pos named⟩, rfl, ?_⟩,
        row_afterRun⟩
      exact List.getElem?_set_self (List.getElem?_eq_some_iff.mp there).1
  cases effect with
  | memory move =>
    cases move with
    | ticked => exact .inl flies
    | audited => exact .inl flies
    | stopped => exact .inl (flies_updateRun flies (fun _ => rfl) fun _ => rfl)
    | @crashed token =>
      by_cases mine : c.1 = token
      · exact .inr (.inl (dropped_crash flies mine))
      · exact .inl (flies_crash flies mine)
    | looped at_ => exact .inl (moves at_ rfl)
    | elevated at_ => exact .inl (moves at_ rfl)
    | stepUp at_ => exact .inl (flies_updateRun (moves at_ rfl) (fun _ => rfl) fun _ => rfl)
    | @failed token v run old at_ =>
      rcases flies_setWorker keyed at_ flies with kept | ⟨rfl, rfl, on⟩
      · exact .inl (flies_updateRun kept (fun _ => rfl) fun _ => rfl)
      · have named : run.token = token := (Table.find_mem (findWorker_some at_).1).2
        refine .inr (.inl ?_)
        simp only [dropped, at_, Option.toList_some, List.mem_filterMap, List.mem_singleton]
        exact ⟨_, rfl, by simp [on, Run.claim, named]⟩
    | looked at_ => exact .inl (moves at_ rfl)
    | waited at_ => exact .inl (moves at_ rfl)
    | handled at_ => exact .inl (goesOn at_)
    | unanswered at_ => exact .inl (flies_updateRun (goesOn at_) (fun _ => rfl) fun _ => rfl)
  | ran =>
    obtain ⟨worker, ⟨run, member, rfl, here⟩, on⟩ := flies
    exact .inl ⟨worker, ⟨run, List.mem_append_left _ member, rfl, here⟩, on⟩
  | claimed at_ => exact .inl (moves at_ rfl)
  | @recorded token v run row' outcome at_ =>
    rcases flies_setWorker keyed at_ flies with kept | ⟨rfl, rfl, _⟩
    · exact .inl kept
    · exact .inr (.inr (by rw [← (at_of_findWorker at_).1]; rfl))
  | reset at_ =>
    rcases flies_setWorker keyed at_ flies with kept | ⟨rfl, rfl, _⟩
    · exact .inl kept
    · exact .inr (.inr (by rw [← (at_of_findWorker at_).1]; rfl))
  | paused found ended => exact .inl (flies_crash flies (flies_not_ended keyed found ended flies))
  | finished found ended => exact .inl (flies_crash flies (flies_not_ended keyed found ended flies))
  | _ => exact .inl flies

/-- A row that runs after a step is in a worker's hands, or it ran before, with
no worker, or its worker is one the step ends. -/
theorem inHand_of_effect (wf : WellFormed s) {runner : Runner Input Snap Env} {a : Action Input Env}
    (effect : Effect runner s a s') : ∀ r ∈ s'.rows, r.status = .running →
      s'.InHand r ∨ r ∈ s.rows ∧ (¬s.InHand r ∨ ∃ x ∈ s.dropped a, x.2 = r.id ∧ r.runToken = some x.1) := by
  have kept : ∀ r ∈ s.rows,
    (∀ c w row, s.Flies c w row → a = .record c.1 w → r.id = row.id → r.runToken ≠ some c.1) →
      s'.InHand r ∨ r ∈ s.rows ∧ (¬s.InHand r ∨ ∃ x ∈ s.dropped a, x.2 = r.id ∧ r.runToken = some x.1) := by
    intro r member unwritten
    by_cases inHand : s.InHand r
    · obtain ⟨c, w, row, flies, held, same⟩ := inHand_iff.mp inHand
      rcases flies_after wf.runsKeyed effect flies with still | drops | writes
      · exact .inl (inHand_iff.mpr ⟨c, w, row, still, held, same⟩)
      · exact .inr ⟨member, .inr ⟨_, drops, same, held⟩⟩
      · exact absurd held (unwritten c w row flies writes same.symm)
    · exact .inr ⟨member, .inl inHand⟩
  -- The row a worker writes is the only one it works on.
  have other : ∀ {token w run worker row}, s.findWorker token w = some (run, worker) → worker.row = some row →
      ∀ r : RowRecord Input Snap, ¬(r.id = row.id ∧ r.runToken = some token) → ∀ c v row', s.Flies c v row' →
        (.record token w : Action Input Env) = .record c.1 v → r.id = row'.id → r.runToken ≠ some c.1 := by
    intro token w run worker row at_ on r unmet c v row' flies writes same held
    obtain ⟨rfl, rfl⟩ := Action.record.inj writes
    obtain ⟨worker', ⟨run', member, rfl, here⟩, on'⟩ := flies
    obtain ⟨found, there⟩ := findWorker_some at_
    obtain ⟨memberRun, named⟩ := Table.find_mem found
    rw [wf.runsKeyed.eq_of_key member memberRun named.symm, there] at here
    cases Option.some.inj here
    rw [on] at on'
    cases Option.some.inj on'
    exact unmet ⟨same, held⟩
  have inserted : ∀ {actor action reverts rows}, (∀ c w, a ≠ .record c w) →
      ∀ r ∈ (s.insert actor action reverts rows).rows, r.status = .running →
        s'.InHand r ∨ r ∈ s.rows ∧ (¬s.InHand r ∨ ∃ x ∈ s.dropped a, x.2 = r.id ∧ r.runToken = some x.1) := by
    intro actor action reverts rows unwritten r member running
    rcases List.mem_append.mp member with old | new
    · exact kept r old fun _ _ _ _ writes => absurd writes (unwritten _ _)
    · obtain ⟨_, _, rfl⟩ := List.mem_map.mp new
      cases running
  cases effect with
  | memory move =>
    rw [move.tables.2.1]
    intro r member _
    exact kept r member fun _ _ _ _ writes => by cases writes; cases move
  | created => exact inserted (by simp)
  | reverted => exact inserted (by simp)
  | discarded => exact fun r member _ => kept r (Table.mem_delete.mp member).1 (by simp)
  | retried | cancelled | interrupted =>
    exact Table.forall_update.mpr fun r member => ⟨by simp, fun _ _ => kept r member (by simp)⟩
  | @claimed token w locked run row at_ next =>
    obtain ⟨found, there⟩ := findWorker_some at_
    obtain ⟨memberRun, named⟩ := Table.find_mem found
    refine Table.forall_update.mpr fun r member => ⟨fun same _ => .inl ?_, fun _ _ => kept r member (by simp)⟩
    refine inHand_iff.mpr ⟨run.claim, w, claimed token row, ?_, by rw [← named]; rfl, same.symm⟩
    refine ⟨.running (claimed token row),
      ⟨_, Table.mem_update.mpr ⟨run, memberRun, if_pos named⟩, rfl, ?_⟩, rfl⟩
    exact List.getElem?_set_self (List.getElem?_eq_some_iff.mp there).1
  | @recorded _ _ _ _ outcome at_ =>
    refine Table.forall_update.mpr fun r member => ⟨fun _ running => ?_, fun unmet _ => ?_⟩
    · exact absurd running outcome.status_settled.2
    · exact kept r member (other at_ rfl r unmet)
  | reset at_ =>
    exact Table.forall_update.mpr fun r member =>
      ⟨by simp, fun unmet _ => kept r member (other at_ rfl r unmet)⟩
  | resumed | swept | ran | beaten | paused | finished => exact fun r member _ => kept r member (by simp)

end State
end OpenAduc.BulkJobs
