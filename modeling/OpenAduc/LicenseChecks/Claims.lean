import OpenAduc.LicenseChecks.FollowUps

namespace OpenAduc.LicenseChecks
open BulkJobs (GroupChange)

variable {t : Texts} {s s' : State} {a : Action}

/-- What a statement does to the checks. -/
inductive Effect (t : Texts) (s s' : State) : Prop
  | same (is : s'.checks = s.checks)
  | stored (added : List Check) (fresh : ∀ c ∈ added, s.nextRow ≤ c.rowId ∧ c.rowId < s'.nextRow)
      (keyed : Table.Keyed Check.rowId added)
      (inserted : ∀ c ∈ added, Granting c.expected ∧ c.toFollowUp = .inserted c.expected ∧
        c.claimToken = none)
      (is : s'.checks = s.checks ++ added)
  | deleted (id : Nat) (is : s'.checks = Table.delete (fun c => c.rowId = id) s.checks)
  | stopped (o : OverdueCheck) (now : Nat) (stop : Stop) (why : t.stopOf o.asWaiting now = some stop)
      (is : s'.checks = Table.update (fun c => c.rowId = o.rowId ∧ c.status = .waiting ∧ c.Unclaimed s.now)
        (fun c => { c with toFollowUp := c.halted stop, claimToken := none }) s.checks)
  | claimed (rowId at_ : Nat) (c : Check) (found : Table.find Check.rowId rowId s.checks = some c)
      (waits : c.status = .waiting)
      (is : s'.checks = Table.update (fun c => c.rowId = rowId)
        (fun c => { c with
          toFollowUp := c.begun at_
          claimToken := some s.nextToken
          nextAttemptAt := s.now + LEASE }) s.checks)
      (next : s.nextToken < s'.nextToken)
  | recorded (p : Nat) (on : List Nat) (token : Nat) (claimed : ClaimedCheck) (now : Nat) (answers : Answers)
      (stage : (s.processes p).stage = .checking on token claimed now)
      (is : s'.checks = Table.update (fun c => c.rowId = claimed.check.rowId ∧ c.claimToken = some token)
        (fun c =>
          let u := (t.look claimed.check.toFollowUp claimed.groups now answers).1
          { c with toFollowUp := u.apply now c.toFollowUp, nextAttemptAt :=
            u.nextAttemptAt now, claimToken := none }) s.checks)

/-- What an action does to one process's stage. -/
inductive Moves (t : Texts) (s : State) (a : Action) (s' : State) (p : Nat) : Prop
  | same (is : (s'.processes p).stage = (s.processes p).stage)
  | ended (is : (s'.processes p).stage = .idle)
      (why : a = .endSweep p ∨ a = .die p ∨ ∃ on token rowId, (s.processes p).stage = .claimed on token rowId)
  | began (on : List Nat) (now : Nat) (was : (s.processes p).stage = .idle)
      (is : (s'.processes p).stage = .stopping on now (s.overdueChecks on))
  | stopping (on : List Nat) (now : Nat) (o : OverdueCheck) (overdue : List OverdueCheck)
      (was : (s.processes p).stage = .stopping on now (o :: overdue)) (is : (s'.processes p).stage =
        .stopping on now overdue)
      (checks : s'.checks = (s.stopCheck t o now).checks)
  | claiming (on : List Nat) (is : (s'.processes p).stage = .claiming on)
      (was : (∃ now, (s.processes p).stage = .stopping on now []) ∨
        ∃ token claimed now, (s.processes p).stage = .checking on token claimed now)
  | claimed (on : List Nat) (rowId : Nat) (was : (s.processes p).stage = .claiming on)
      (is : (s'.processes p).stage = .claimed on s.nextToken rowId) (next : s.nextToken < s'.nextToken)
      (named : ∀ c ∈ s'.checks, c.claimToken = some s.nextToken → c.rowId = rowId ∨ c ∈ s.checks)
  | loaded (on : List Nat) (token rowId : Nat) (claimed : ClaimedCheck) (now : Nat)
      (was : (s.processes p).stage = .claimed on token rowId)
      (is : (s'.processes p).stage = .checking on token claimed now)
      (found : Table.find Check.rowId rowId s.checks = some claimed.check) (checks : s'.checks = s.checks)

structure Taken (t : Texts) (s : State) (a : Action) (s' : State) : Prop where
  effect : Effect t s s'
  moves : ∀ p, Moves t s a s' p
  now : s.now ≤ s'.now
  nextRow : s.nextRow ≤ s'.nextRow
  nextToken : s.nextToken ≤ s'.nextToken

@[simp] theorem stage_setStage {p q : Nat} {stage : Stage} :
    ((s.setStage p stage).processes q).stage = if q = p then stage else (s.processes q).stage := by
  by_cases is : q = p <;> simp [State.setStage, is]

theorem stage_setStage_self {p : Nat} {stage : Stage} : ((s.setStage p stage).processes p).stage = stage := by
  rw [stage_setStage, if_pos rfl]

theorem moves_setStage {p : Nat} {stage : Stage}
    (others : ∀ q, (s'.processes q).stage = (s.processes q).stage)
    (moves : Moves t s a (s'.setStage p stage) p) (q : Nat) : Moves t s a (s'.setStage p stage) q := by
  by_cases is : q = p
  · rw [is]
    exact moves
  · exact .same (by rw [stage_setStage, if_neg is, others])

/-- The checks stored with a job are of its new rows. -/
theorem mem_storeLicenseChecks {cached : List CachedLicensedGroup} {rows : List ImportRow}
    {now : Nat} {c : Check}
    (member : c ∈ t.storeLicenseChecks cached rows now) :
    ∃ r ∈ rows, c.rowId = r.id ∧ c.expected ≠ [] ∧ c.toFollowUp = .inserted c.expected ∧ c.claimToken = none ∧
      c.expected = t.expectedOf
      (t.licensedGroupsById cached (rows.flatMap fun r => r.groupIds.map t.lower).eraseDups) r.groupIds := by
  obtain ⟨r, inRows, made⟩ := List.mem_flatMap.mp member
  dsimp only at made
  split at made
  next => cases made
  next some_ =>
    cases List.mem_singleton.mp made
    exact ⟨r, inRows, rfl, some_, rfl, rfl, rfl⟩

/-- Every group the cache says is licensed grants something. -/
theorem licensedGroupsById_grants {cached : List CachedLicensedGroup} {ids : List String}
    {k : String} {g : LicensedGroup}
    (got : Assoc.get (t.licensedGroupsById cached ids) k = some g) : g.skus ≠ [] := by
  have all : ∀ (rows : List CachedLicensedGroup) (m : List (String × LicensedGroup)),
    (∀ r ∈ rows, r.skus ≠ []) →
      (∀ k g, Assoc.get m k = some g → g.skus ≠ []) → ∀ k g,
      Assoc.get (rows.foldl (fun m r => Assoc.set m (t.lower r.objectGuid)
        { id := t.lower r.objectGuid, name :=
          r.name.getD r.objectGuid, entraGroupId := r.entraGroupId, skus := r.skus }) m) k = some g →
      g.skus ≠ [] := by
    intro rows
    induction rows with
    | nil => exact fun m _ before => before
    | cons r rows ih =>
      intro m grant before
      refine ih _ (fun x member => grant x (List.mem_cons_of_mem _ member)) fun k g got => ?_
      rw [Assoc.get_set] at got
      split at got
      · cases got
        exact grant r List.mem_cons_self
      · exact before k g got
  refine all _ [] (fun r member => ?_) (fun k g got => Option.noConfusion rfl (heq_of_eq got)) k g got
  simpa using (List.mem_filter.mp member).2

theorem granting_expectedOf {cached : List CachedLicensedGroup} {ids groupIds : List String}
    (some_ : t.expectedOf (t.licensedGroupsById cached ids) groupIds ≠ []) :
    Granting (t.expectedOf (t.licensedGroupsById cached ids) groupIds) := by
  refine ⟨some_, fun g member => ?_⟩
  obtain ⟨id, _, made⟩ := List.mem_flatMap.mp member
  split at made
  next licensed got =>
    cases List.mem_singleton.mp made
    exact licensedGroupsById_grants got
  next => cases made

/-- Each row gets one check at most. -/
theorem keyed_storeLicenseChecks {cached : List CachedLicensedGroup} {rows : List ImportRow} {now : Nat}
    (keyed : Table.Keyed ImportRow.id rows) :
    Table.Keyed Check.rowId (t.storeLicenseChecks cached rows now) := by
  unfold Texts.storeLicenseChecks
  generalize t.licensedGroupsById cached _ = licensed
  refine List.Nodup.sublist ?_ keyed
  clear keyed
  induction rows with
  | nil => exact .slnil
  | cons r rows ih =>
    dsimp only at ih ⊢
    rw [List.flatMap_cons, List.map_append, List.map_cons]
    split
    · exact ih.cons _
    · exact ih.cons_cons _

/-- New checks are added behind those there are. -/
theorem taken_store {cached : List CachedLicensedGroup} {providerId : Nat} {groupIds : List (List String)} :
    Taken t s a (s.store t cached providerId groupIds) := by
  have ids : ∀ r ∈ (groupIds.mapIdx fun i ids =>
      ({ id := s.nextRow + i, providerId, jobCreatedAt := s.now, groupIds := ids,
         status := .pending, targetId := none, groups := none, finishedAt := none } : ImportRow)),
      s.nextRow ≤ r.id ∧ r.id < s.nextRow + groupIds.length := by
    intro r member
    obtain ⟨i, bound, rfl⟩ := List.mem_mapIdx.mp member
    exact ⟨Nat.le_add_right _ _, Nat.add_lt_add_left bound _⟩
  refine ⟨.stored
    _ (fun c member => ?_) (keyed_storeLicenseChecks ?_) (fun c member => ?_) rfl, fun p => .same rfl,
    Nat.le_refl _, Nat.le_add_right _ _, Nat.le_refl _⟩
  · obtain ⟨r, inRows, is, _⟩ := mem_storeLicenseChecks member
    rw [is]
    exact ids r inRows
  · refine List.nodup_iff_injective_get.mpr fun i j same => ?_
    simp only [List.get_eq_getElem, List.getElem_map, List.getElem_mapIdx] at same
    exact Fin.ext (Nat.add_left_cancel same)
  · obtain ⟨r, _, _, some_, inserted, free, is⟩ := mem_storeLicenseChecks member
    refine ⟨?_, inserted, free⟩
    rw [is] at some_ ⊢
    exact granting_expectedOf some_

/-- A statement that leaves the checks, the clock and the numbers alone. -/
theorem taken_setStage {p : Nat} {stage : Stage} (moves : Moves t s a (s.setStage p stage) p) :
    Taken t s a (s.setStage p stage) :=
  ⟨.same rfl, moves_setStage (fun _ => rfl) moves, Nat.le_refl _, Nat.le_refl _, Nat.le_refl _⟩

theorem stopCheck_frame (t : Texts) (s : State) (o : OverdueCheck) (now : Nat) :
    (s.stopCheck t o now).processes = s.processes ∧ (s.stopCheck t o now).now = s.now ∧
      (s.stopCheck t o now).nextRow = s.nextRow ∧ (s.stopCheck t o now).nextToken = s.nextToken := by
  unfold State.stopCheck
  split <;> exact ⟨rfl, rfl, rfl, rfl⟩

/-- A stop is written only over a check that waits, unclaimed. -/
theorem taken_stopNext {p : Nat} (taken : s.stopNext t p = some s') : Taken t s a s' := by
  unfold State.stopNext at taken
  split at taken
  next on now o overdue stage =>
    cases taken
    obtain ⟨processes, now_, row, token⟩ := stopCheck_frame t s o now
    refine ⟨?_, moves_setStage (fun q => by rw [processes]) ?_, now_.ge, row.ge, token.ge⟩
    case refine_2 => exact .stopping on now o overdue stage stage_setStage_self rfl
    unfold State.stopCheck
    split
    next => exact .same rfl
    next stop why => exact .stopped o now stop why rfl
  next on now stage =>
    cases taken
    exact taken_setStage (.claiming on stage_setStage_self (.inl ⟨now, stage⟩))
  next => cases taken

theorem taken_beginSweep {p now : Nat} {on : List Nat} (taken : s.beginSweep p on now = some s') :
    Taken t s a s' := by
  unfold State.beginSweep at taken
  split at taken
  next stage =>
    cases taken
    exact taken_setStage (.began on now stage stage_setStage_self)
  next => cases taken

/-- A claim takes one due check that nobody holds. -/
theorem taken_claimDue {p rowId clock : Nat} (taken : s.claimDue p rowId clock = some s') :
    Taken t s a s' := by
  unfold State.claimDue at taken
  split at taken
  next on stage =>
    dsimp only at taken
    split at taken
    next r c isRow found =>
      split at taken
      next due =>
        cases taken
        refine ⟨.claimed rowId _ c found due.1 rfl (Nat.lt_succ_self _), moves_setStage (fun _ => rfl) ?_,
          Nat.le_refl _, Nat.le_refl _, Nat.le_succ _⟩
        refine .claimed on rowId stage stage_setStage_self (Nat.lt_succ_self _) fun c member holds => ?_
        obtain ⟨x, inChecks, is⟩ := Table.mem_update.mp member
        split at is
        next named =>
          rw [← is]
          exact .inl named
        next =>
          rw [← is]
          exact .inr inChecks
      next => cases taken
    next => cases taken
  next => cases taken

theorem taken_load {p now : Nat} (taken : s.load p now = some s') : Taken t s a s' := by
  unfold State.load at taken
  split at taken
  next on token rowId stage =>
    split at taken
    next check r found isRow =>
      cases taken
      exact taken_setStage (.loaded on token rowId _ now stage stage_setStage_self found rfl)
    next =>
      cases taken
      exact taken_setStage (.ended stage_setStage_self (.inr (.inr ⟨on, token, rowId, stage⟩)))
  next => cases taken

theorem stage_throttleWhere {p providerId clock q : Nat} {e : Option Thrown} :
    ((s.throttleWhere p providerId clock e).processes q).stage = (s.processes q).stage := by
  unfold State.throttleWhere
  split
  · by_cases is : q = p <;> simp [State.throttle, is]
  · rfl

theorem throttleWhere_frame (s : State) (p providerId clock : Nat) (e : Option Thrown) :
    (s.throttleWhere p providerId clock e).checks = s.checks ∧ (s.throttleWhere p
      providerId clock e).now = s.now ∧
      (s.throttleWhere p providerId clock e).nextRow = s.nextRow ∧
      (s.throttleWhere p providerId clock e).nextToken = s.nextToken := by
  unfold State.throttleWhere
  split <;> exact ⟨rfl, rfl, rfl, rfl⟩

theorem taken_record {p clock : Nat} {answers : Answers}
    (taken : s.record t p answers clock = some s') : Taken t s a s' := by
  unfold State.record at taken
  split at taken
  next on token claimed now stage =>
    cases taken
    obtain ⟨checks, now_, row, token_⟩ := throttleWhere_frame s p claimed.providerId clock
      (t.look claimed.check.toFollowUp claimed.groups now answers).2
    refine ⟨.recorded p on token claimed now answers stage ?_, moves_setStage (fun q => stage_throttleWhere)
      (.claiming on stage_setStage_self (.inr ⟨token, claimed, now, stage⟩)), now_.ge, row.ge, token_.ge⟩
    rw [← checks]
    rfl
  next => cases taken

/-- Every step is one of these on the table. -/
theorem taken_of_step (taken : step t s a = some s') : Taken t s a s' := by
  cases a with
  | tick ms =>
    cases taken
    exact ⟨.same rfl, fun _ => .same rfl, Nat.le_add_right _ _, Nat.le_refl _, Nat.le_refl _⟩
  | rowRun =>
    cases taken
    exact ⟨.same rfl, fun _ => .same rfl, Nat.le_refl _, Nat.le_refl _, Nat.le_refl _⟩
  | store cached providerId groupIds =>
    cases taken
    exact taken_store
  | rowDeleted id =>
    cases taken
    exact ⟨.deleted id rfl, fun _ => .same rfl, Nat.le_refl _, Nat.le_refl _, Nat.le_refl _⟩
  | beginSweep => exact taken_beginSweep taken
  | stopNext => exact taken_stopNext taken
  | claimDue => exact taken_claimDue taken
  | load => exact taken_load taken
  | record => exact taken_record taken
  | endSweep p =>
    cases taken
    exact taken_setStage (.ended stage_setStage_self (.inl rfl))
  | die p =>
    cases taken
    refine ⟨.same rfl, fun q => ?_, Nat.le_refl _, Nat.le_refl _, Nat.le_refl _⟩
    by_cases is : q = p
    · cases is
      exact .ended (by simp) (.inr (.inl rfl))
    · exact .same (by simp [is])

end OpenAduc.LicenseChecks
