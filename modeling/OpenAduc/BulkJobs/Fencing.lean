import OpenAduc.BulkJobs.InFlight

namespace OpenAduc.BulkJobs
variable {Input Snap Env : Type}

/-- The statements and moves a run makes under its own token. -/
def Action.By (token : Token) : Action Input Env → Prop
  | .heartbeat t | .loop t _ | .credentials t _ _ | .workerFails t _ | .claimRow t _ _ | .waiting t _
  | .runRow t _ _ | .record t _ | .settle t => t = token
  | .interruptRows _ t => t = some token
  | _ => False

/-- A row left alone, or one still running under this token that has settled. -/
def Finishes (token : Token) (r r' : RowRecord Input Snap) : Prop :=
  r' = r ∨ r.status = .running ∧ r.runToken = some token ∧ r'.status ∈ settledStatuses ∧
    r'.runToken = some token ∧ r'.place = r.place

instance [DecidableEq Input] [DecidableEq Snap] (token : Token) (r r' : RowRecord Input Snap) :
    Decidable (Finishes token r r') :=
  inferInstanceAs (Decidable (_ ∨ _))

namespace State
variable (s : State Input Snap)

/-- A step that changes no job, and no row but to finish those running under this token. -/
def OnlyFinishes (token : Token) (s' : State Input Snap) : Prop :=
  s'.jobs = s.jobs ∧ List.Forall₂ (Finishes token) s.rows s'.rows

instance [DecidableEq Input] [DecidableEq Snap] (token : Token) (s' : State Input Snap) :
    Decidable (s.OnlyFinishes token s') :=
  inferInstanceAs (Decidable (_ ∧ _))

/-- A worker of the run whose token the row has still works on it. -/
def Working (r : RowRecord Input Snap) : Prop :=
  ∃ run ∈ s.runs, r.runToken = some run.token ∧ ∃ worker ∈ run.workers, ∃ row ∈ worker.row, row.id = r.id

instance (r : RowRecord Input Snap) : Decidable (s.Working r) :=
  inferInstanceAs (Decidable (∃ _ ∈ _, _))

/-- A row is failed as left in flight only once no worker works on it any
more, and a run that lost its job puts none back. -/
def GoneFirst (a : Action Input Env) : Prop :=
  (∀ p ∈ a.interrupts, ∀ r ∈ s.rows, r.jobId = p.1 → r.status = .running → (p.2 = none ∨ r.runToken = p.2) →
    ¬s.Working r) ∧
  ∀ p ∈ s.putsBack a, s.Lost p.1 → ∀ r ∈ s.rows, r.id = p.2.id → r.runToken ≠ some p.1

instance (a : Action Input Env) : Decidable (s.GoneFirst a) :=
  inferInstanceAs (Decidable (_ ∧ _))

variable {s} {s' : State Input Snap}

theorem working_of_flies {c : Token × JobRecord} {w : Nat} {row r : RowRecord Input Snap}
    (flies : s.Flies c w row)
    (same : r.id = row.id) (held : r.runToken = some c.1) : s.Working r := by
  obtain ⟨worker, ⟨run, member, rfl, here⟩, works⟩ := flies
  exact ⟨run, member, held, worker, List.mem_of_getElem? here, row, works, same.symm⟩

/-- A row in flight that still has its run's token is running. -/
def FlightsRun (s : State Input Snap) : Prop :=
  ∀ c w row, s.Flies c w row → ∀ r ∈ s.rows, r.id = row.id → r.runToken = some c.1 → r.status = .running

/-- A step keeps every row in flight running, where what it deletes has no rows in flight. -/
theorem flightsRun_step (fly : InFlight s) (wf : WellFormed s) (running : FlightsRun s)
    {runner : Runner Input Snap Env} {a : Action Input Env} (gone : s.GoneFirst a)
    (effect : Effect runner s a s') : FlightsRun s' := by
  intro c w row flies r' member named held
  rcases flies_of_effect wf.runsKeyed effect flies with before | ⟨r₀, member₀, _, rfl, rfl, _⟩
  · rcases rowStep_of_effect wf.rowsKeyed effect r' member with ⟨r, old, step⟩ | fresh
    · have same := (RowRecord.place_eq.mp step.place).1.symm.trans named
      cases step with
      | same => exact running c w row before r' old same held
      | retried _ status =>
        have still := running c w row before r old same held
        simp [retriedStatuses, still] at status
      | skipped status =>
        have still := running c w row before r old same held
        simp [still] at status
      | interrupted status theirs =>
        exact absurd (working_of_flies before same held) (gone.1 _ rfl r old rfl status theirs)
      | claimed => rfl
      | recorded at_ lands theirs =>
        have mine := Option.some.inj (held.symm.trans theirs)
        exact absurd mine (fly.written_other wf effect at_ rfl before flies (same.symm.trans lands))
      | reset at_ lands theirs =>
        have mine := Option.some.inj (held.symm.trans theirs)
        exact absurd mine (fly.written_other wf effect at_ rfl before flies (same.symm.trans lands))
    · exact absurd (named ▸ fresh.id) (Nat.not_le.mpr (fly.place c w row before).2.1)
  · rw [InFlight.row_claimedBy wf.rowsKeyed member₀ member named]
    rfl

theorem flightsRun_of_reach {runner : Runner Input Snap Env} (reach : (service runner).Reach GoneFirst s) :
    FlightsRun s := by
  refine reach.invariant ?_ fun _ _ _ previous running gone taken =>
    flightsRun_step (.of_reach previous) (.of_reach previous) running gone (effect_of_step taken)
  rintro _ rfl
  simp [FlightsRun, Flies, At, State.empty]

/-- A run keeps having lost its job. -/
theorem lost_of_path {runner : Runner Input Snap Env} {meets : State Input Snap → Action Input Env → Prop}
    {t : Token} (path : (service runner).Path meets s s') (given : t < s.nextToken) (lost : s.Lost t) :
    t < s'.nextToken ∧ s'.Lost t := by
  induction path with
  | refl => exact ⟨given, lost⟩
  | tail _ _ taken ih =>
    have effect := effect_of_step taken
    exact ⟨ih.1.trans_le (nextToken_le effect), lost_of_effect effect ih.1 ih.2⟩

theorem onlyFinishes_rows {token : Token} (jobs : s'.jobs = s.jobs) (rows : s'.rows = s.rows) :
    s.OnlyFinishes token s' := by
  refine ⟨jobs, ?_⟩
  rw [rows]
  exact List.forall₂_same.mpr fun r _ => .inl rfl

theorem onlyFinishes_update {token : Token} {cond : RowRecord Input Snap → Prop} [DecidablePred cond]
    {set : RowRecord Input Snap → RowRecord Input Snap} (jobs : s'.jobs = s.jobs)
    (rows : s'.rows = Table.update cond set s.rows)
    (finishes : ∀ r ∈ s.rows, cond r → Finishes token r (set r)) : s.OnlyFinishes token s' := by
  refine ⟨jobs, ?_⟩
  rw [rows, Table.update, List.forall₂_map_right_iff]
  refine List.forall₂_same.mpr fun r member => ?_
  split
  next met => exact finishes r member met
  next => exact .inl rfl

theorem settled_of_outcome (outcome : RowOutcome Snap) : outcome.status ∈ settledStatuses := by
  have settled := outcome.status_settled
  cases status : outcome.status <;> simp_all [settledStatuses]

/-- What a run that lost its job may still do: finish a row still running under its token. -/
theorem onlyFinishes_of_lost (running : FlightsRun s) {t : Token} (lost : s.Lost t)
    {runner : Runner Input Snap Env} {a : Action Input Env} (own : a.By t) (gone : s.GoneFirst a)
    (effect : Effect runner s a s') : s.OnlyFinishes t s' := by
  have kept : ∀ {cond : JobRecord → Prop} [DecidablePred cond] {set : JobRecord → JobRecord},
      (∀ j, cond j → j.runToken = some t) → Table.update cond set s.jobs = s.jobs :=
    fun holds => Table.update_eq_self fun j member met => lost j member (holds j met)
  cases effect with
  | memory move => exact onlyFinishes_rows move.tables.1 move.tables.2.1
  | beaten found =>
    cases own
    have named := (Table.find_mem found).2
    exact onlyFinishes_rows (kept fun j met => named ▸ met.2) rfl
  | claimed at_ next =>
    cases own
    obtain ⟨_, _, _, ⟨j, member, _, _, held⟩, _⟩ := nextRow_claimable next
    exact absurd held (lost j member)
  | recorded at_ =>
    cases own
    obtain ⟨named, flies⟩ := flies_of_worker at_ rfl
    refine onlyFinishes_update rfl rfl fun r member met => .inr ⟨?_, met.2, settled_of_outcome _, met.2, rfl⟩
    exact running _ _ _ flies r member met.1 (met.2.trans (congrArg some named.symm))
  | reset at_ =>
    cases own
    refine onlyFinishes_rows rfl (Table.update_eq_self fun r member met => ?_)
    exact gone.2 _ (putsBack_resetting at_) lost r member met.1 met.2
  | paused found =>
    cases own
    have named := (Table.find_mem found).2
    exact onlyFinishes_rows (kept fun j met => named ▸ met.2.1) rfl
  | finished found =>
    cases own
    have named := (Table.find_mem found).2
    exact onlyFinishes_rows (kept fun j met => named ▸ met.2.1) rfl
  | interrupted =>
    cases own
    refine onlyFinishes_update rfl rfl fun r member met =>
      .inr ⟨met.2.1, ?_, by simp [settledStatuses], ?_, rfl⟩
    · exact met.2.2.resolve_left (by simp)
    · exact met.2.2.resolve_left (by simp)
  | created => cases own
  | discarded => cases own
  | reverted => cases own
  | resumed => cases own
  | retried => cases own
  | cancelled => cases own
  | swept => cases own
  | ran => cases own

end State

open State

/-- Where rows are failed only once no worker works on them, and no run that
lost its job puts one back: a run that lost its job never again changes the
job or claims a row, and only finishes rows still running under its token. -/
theorem lost_run_onlyFinishes {runner : Runner Input Snap Env} {s u v : State Input Snap}
    (reach : (service runner).Reach GoneFirst s) {t : Token} (given : t < s.nextToken) (lost : s.Lost t)
    (path : (service runner).Path GoneFirst s u) {a : Action Input Env} (own : a.By t) (gone : u.GoneFirst a)
    (taken : step runner u a = some v) : u.OnlyFinishes t v :=
  have there := reach.path path
  onlyFinishes_of_lost (flightsRun_of_reach there) (lost_of_path path given lost).2 own gone
    (effect_of_step taken)

/-- A run's heartbeats stop reaching the store while its worker is on a row,
and the sweep takes the job from it. -/
def sweptInFlight : List (Action Unit (RowResult Unit)) :=
  [.create operator .userDisable [{ targetId := some "user", input := (), after := none }], .run 0,
    .loop 0 0, .credentials 0 0 true, .claimRow 0 0 [], .tick 61, .recoverStale, .runRow 0 0 changed]

/-- The sweep's run is lost, and its worker finishes its row before the row is failed. -/
theorem lost_run_finishes_row : ∃ s v, (service told).run .empty sweptInFlight = some s ∧ s.Lost 0 ∧
    step told s (.record 0 0) = some v ∧ (∃ r ∈ v.rows, r.status = .succeeded) ∧ s.OnlyFinishes 0 v := by
  have ran : (((service told).run .empty sweptInFlight).any fun s => s.Lost 0 ∧ 0 < s.nextToken ∧
      s.GoneFirst (.record 0 0 : Action Unit (RowResult Unit)) ∧
      ∃ v ∈ step told s (.record 0 0), ∃ r ∈ v.rows, r.status = .succeeded) = true := by
    decide
  cases reached : (service told).run .empty sweptInFlight with
  | none => simp [reached] at ran
  | some s =>
    simp only [reached, Option.any_some, decide_eq_true_eq] at ran
    obtain ⟨lost, given, gone, v, taken, finished⟩ := ran
    have reach : (service told).Reach GoneFirst s := .of_run (.start rfl) reached (by decide)
    exact ⟨s, v, rfl, lost, taken, finished,
      lost_run_onlyFinishes (a := .record 0 0) reach given lost .refl rfl gone taken⟩

/-- A run that lost its job while a worker was on a row: the row is failed as
interrupted, and the worker's late outcome overwrites the failure. -/
theorem lost_run_overwrites : ¬∀ s u v t a, (service told).Reachable s → t < s.nextToken → s.Lost t →
    (service told).Path (fun _ _ => True) s u → a.By t → step told u a = some v → u.OnlyFinishes t v := by
  intro holds
  have ran : (((service told).run .empty (sweptInFlight ++ [.interruptRows 0 none])).any fun s =>
      s.Lost 0 ∧ 0 < s.nextToken ∧ ∃ v ∈ step told s (.record 0 0), ¬s.OnlyFinishes 0 v) = true := by decide
  obtain ⟨s, reach, lost, given, v, taken, overwrites⟩ :=
    Transition.System.Reachable.exists_of_run (.start rfl) ran
  exact overwrites (holds s s v 0 (.record 0 0) reach given lost .refl rfl taken)

end OpenAduc.BulkJobs
