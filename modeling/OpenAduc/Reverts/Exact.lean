import OpenAduc.Reverts.Chosen

namespace OpenAduc.Reverts
open Naming (Text text)
open BulkJobs (JobId JobActor JobRecord RowRecord BulkJobRowInput State WellFormed)

variable {Input : Type}

namespace Cache
variable {cache : Cache} {ids : List String} {id name : String}

/-- The cache has the group as one AD protects. -/
def Protects (cache : Cache) (id : String) : Prop :=
  ∃ g ∈ cache.groups, g.id.toLower = id ∧ Privilege.isProtectedGroup g.group = true

/-- The name of a group AD protects. -/
def protectedName (cache : Cache) (id : String) : Option String :=
  ((Table.find (fun g => g.id.toLower) id cache.groups).filter fun g =>
    Privilege.isProtectedGroup g.group).map (·.name)

theorem protectedName_eq_some : cache.protectedName id = some name ↔
    ∃ g ∈ cache.groups, g.id.toLower = id ∧ Privilege.isProtectedGroup g.group = true ∧ g.name = name := by
  unfold protectedName
  simp only [Option.map_eq_some_iff, Option.filter_eq_some_iff, cache.groupIds.find_iff]
  constructor
  · rintro ⟨g, ⟨⟨member, same⟩, guarded⟩, named⟩
    exact ⟨g, member, same, guarded, named⟩
  · rintro ⟨g, member, same, guarded, named⟩
    exact ⟨g, ⟨⟨member, same⟩, guarded⟩, named⟩

theorem protectedName_isSome : (cache.protectedName id).isSome ↔ cache.Protects id := by
  rw [Option.isSome_iff_exists]
  constructor
  · rintro ⟨name, is⟩
    obtain ⟨g, member, same, guarded, _⟩ := protectedName_eq_some.mp is
    exact ⟨g, member, same, guarded⟩
  · rintro ⟨g, member, same, guarded⟩
    exact ⟨g.name, protectedName_eq_some.mpr ⟨g, member, same, guarded, rfl⟩⟩

theorem mem_protectedGroups {e : String × String} : e ∈ cache.protectedGroups ids ↔
    e.1 ∈ ids ∧ cache.protectedName e.1 = some e.2 := by
  rw [protectedName_eq_some]
  unfold protectedGroups
  simp only [List.mem_map, List.mem_filter, decide_eq_true_eq]
  constructor
  · rintro ⟨g, ⟨member, inside, guarded⟩, rfl⟩
    exact ⟨inside, g, member, rfl, guarded, rfl⟩
  · rintro ⟨inside, g, member, same, guarded, named⟩
    exact ⟨g, ⟨member, same ▸ inside, guarded⟩, Prod.ext same named⟩

theorem get_protectedGroups (inside : id ∈ ids) : Assoc.get (cache.protectedGroups ids) id =
    cache.protectedName id := by
  cases got : Assoc.get (cache.protectedGroups ids) id with
  | some name => exact (mem_protectedGroups.mp (Assoc.mem_of_get got)).2.symm
  | none =>
    cases named : cache.protectedName id with
    | none => rfl
    | some name =>
      have member : (id, name) ∈ cache.protectedGroups ids := mem_protectedGroups.mpr ⟨inside, named⟩
      exact absurd (List.mem_map_of_mem member) (Assoc.get_eq_none.mp got)

end Cache

section Guard
variable {env : Env} {cache : Cache} {host : Host} {s : State Input Snapshot} {job : JobId}
    {action : BulkRevertableAction}
  {plan : RevertPlan} {request : BulkJobRevertRequest}

/-- What is chosen of the plan's rows. -/
def Chosen (plan : RevertPlan) (request : BulkJobRevertRequest) (r : JudgedRow) : Prop :=
  r ∈ plan.revert ∨ r ∈ plan.modified ∧ request.Names r.targetId

theorem mem_chosenRows {c : JudgedRow × Bool} :
    c ∈ chosenRows plan request ↔ c.1 ∈ plan.revert ∧ c.2 = false ∨
      (c.1 ∈ plan.modified ∧ request.Names c.1.targetId) ∧ c.2 = true := by
  obtain ⟨r, force⟩ := c
  simp only [chosenRows, List.mem_mergeSort, List.mem_append, List.mem_map, forcedRows_eq, List.mem_filter,
    decide_eq_true_eq, Prod.mk.injEq]
  constructor
  · rintro (⟨x, reverted, rfl, rfl⟩ | ⟨x, modified, rfl, rfl⟩)
    · exact .inl ⟨reverted, rfl⟩
    · exact .inr ⟨modified, rfl⟩
  · rintro (⟨reverted, rfl⟩ | ⟨modified, rfl⟩)
    · exact .inl ⟨r, reverted, rfl, rfl⟩
    · exact .inr ⟨r, modified, rfl, rfl⟩

theorem exists_chosenRows {r : JudgedRow} : Chosen plan request r ↔
    ∃ c ∈ chosenRows plan request, c.1 = r := by
  constructor
  · rintro (reverted | ⟨modified, named⟩)
    · exact ⟨(r, false), mem_chosenRows.mpr (.inl ⟨reverted, rfl⟩), rfl⟩
    · exact ⟨(r, true), mem_chosenRows.mpr (.inr ⟨⟨modified, named⟩, rfl⟩), rfl⟩
  · rintro ⟨c, member, rfl⟩
    exact (mem_chosenRows.mp member).imp And.left And.left

variable (env cache s job action request) in
/-- The groups the rows to revert put users back in, in the rows' order. -/
def selectedReadds : List String := (selected env cache s job action request).flatMap fun c => c.1.readds

theorem findSome_congr {α β : Type} {f g : α → Option β} {l : List α} (same : ∀ a ∈ l, f a = g a) :
    l.findSome? f = l.findSome? g := by
  induction l with
  | nil => rfl
  | cons a rest ih =>
    rw [List.findSome?_cons, List.findSome?_cons, same a List.mem_cons_self,
      ih fun b member => same b (List.mem_cons_of_mem _ member)]

/-- The group a revert names to the operator is the first protected one the rows put users back in. -/
theorem PlanOf.guardedGroup_eq (is : PlanOf env cache host s job action plan) (numbered : s.Numbered) :
    guardedGroup plan (chosenRows plan request) =
      (selectedReadds env cache s job action request).findSome? cache.protectedName := by
  unfold guardedGroup
  rw [is.chosen_eq numbered]
  change List.findSome? _ (selectedReadds env cache s job action request) = _
  refine findSome_congr fun id member => ?_
  obtain ⟨c, chosen, readds⟩ := List.mem_flatMap.mp member
  have own : c.1 ∈ laneRows env cache s job action .revert ++ laneRows env cache s job action .modified := by
    rw [← is.chosen_eq numbered, mem_chosenRows, is.revert.mem_iff, is.modified.mem_iff] at chosen
    exact List.mem_append.mpr (chosen.imp And.left fun modified => modified.1.1)
  have removes : action = .userGroupRemove := by
    obtain ⟨candidate, _, picked⟩ := List.mem_filterMap.mp chosen
    rw [pick_row picked] at readds
    by_contra other
    simp [judged, judgedRow, other] at readds
  rw [is.protectedGroups, if_pos removes]
  exact Cache.get_protectedGroups (List.mem_flatMap.mpr ⟨c.1, own, readds⟩)

/-- Rows are chosen for the preview's own token, some of them, and with protected groups
acknowledged. -/
theorem chooseRows_ok {chosen : List (JudgedRow × Bool)} : chooseRows plan request = .ok chosen ↔
    request.previewToken = plan.token ∧ chosen = chosenRows plan request ∧ chosen ≠ [] ∧
      ∀ name, guardedGroup plan chosen = some name → name ≠ "" → request.acknowledgeProtected = true := by
  unfold chooseRows
  by_cases stale : request.previewToken = plan.token
  · rw [if_neg (not_not_intro stale)]
    dsimp only
    by_cases none : (chosenRows plan request).length = 0
    · rw [if_pos none]
      refine iff_of_false nofun ?_
      rintro ⟨_, rfl, some, _⟩
      exact some (List.length_eq_zero_iff.mp none)
    · rw [if_neg none]
      have left : chosenRows plan request ≠ [] := fun empty => none (List.length_eq_zero_iff.mpr empty)
      cases guarded : guardedGroup plan (chosenRows plan request) with
      | none =>
        constructor
        · intro same
          cases same
          exact ⟨stale, rfl, left, fun name is => by simp [guarded] at is⟩
        · rintro ⟨_, rfl, _⟩
          rfl
      | some name =>
        dsimp only
        by_cases refused : name ≠ "" ∧ request.acknowledgeProtected = false
        · rw [if_pos refused]
          refine iff_of_false nofun ?_
          rintro ⟨_, rfl, _, acknowledged⟩
          have yes := acknowledged name guarded refused.1
          rw [refused.2] at yes
          cases yes
        · rw [if_neg refused]
          constructor
          · intro same
            cases same
            refine ⟨stale, rfl, left, fun other is named => ?_⟩
            cases guarded.symm.trans is
            simpa using fun no => refused ⟨named, no⟩
          · rintro ⟨_, rfl, _⟩
            rfl
  · rw [if_pos stale]
    exact iff_of_false nofun fun is => stale is.1

end Guard

namespace BulkJobService
variable {s after : State Input Snapshot} {actor : JobActor} {job : JobRecord}
    {rows : List (BulkJobRowInput Input)}
  {audited : Bool}

/-- The database takes a revert of the job as it was seen. -/
def Grants (s : State Input Snapshot) (actor : JobActor) (job : JobRecord) : Prop :=
  (s.revert actor job []).isSome

/-- Whether a revert is taken doesn't depend on its rows. -/
theorem grants_iff (rows : List (BulkJobRowInput Input)) : Grants s actor job ↔
    (s.revert actor job rows).isSome := by
  unfold Grants State.revert
  cases BulkJobs.bulkRevertActions job.action with
  | none => exact Iff.rfl
  | some action =>
    cases s.findJob job.id with
    | none => exact Iff.rfl
    | some locked =>
      dsimp only [bind, Option.bind]
      have jobs : (s.insert actor action (some job.id) []).jobs =
        (s.insert actor action (some job.id) rows).jobs := rfl
      simp only [jobs]
      split <;> rfl

theorem insert_ok_iff (rows : List (BulkJobRowInput Input)) :
    (∃ id, (insert s actor job rows audited).1 = .ok id) ↔ Grants s actor job ∧ audited = true := by
  rw [grants_iff rows]
  unfold insert
  cases s.revert actor job rows with
  | none => simp
  | some stored => cases audited <;> simp

theorem revert_some {stored : State Input Snapshot} (taken : s.revert actor job rows = some stored) :
    ∃ action, BulkJobs.bulkRevertActions job.action = some action ∧
      stored = s.insert actor action (some job.id) rows := by
  obtain ⟨action, reverts, taken⟩ := Option.bind_eq_some_iff.mp taken
  obtain ⟨locked, _, taken⟩ := Option.bind_eq_some_iff.mp taken
  split at taken
  next => exact ⟨action, reverts, (Option.some.inj taken).symm⟩
  next => cases taken

/-- A stored revert is one new job of the opposite action, with these rows. -/
theorem insert_ok {id : JobId} (ran : insert s actor job rows audited = (.ok id, after)) :
    ∃ action, BulkJobs.bulkRevertActions job.action = some action ∧ id = s.nextJobId ∧
      after.jobs = (s.insert actor action (some job.id) rows).jobs ∧
      after.rows = (s.insert actor action (some job.id) rows).rows := by
  unfold insert at ran
  split at ran
  next => simp at ran
  next stored taken =>
    cases audited with
    | false => simp at ran
    | true =>
      simp only [if_true, Prod.mk.injEq, Except.ok.injEq] at ran
      obtain ⟨rfl, rfl⟩ := ran
      obtain ⟨action, reverts, rfl⟩ := revert_some taken
      exact ⟨action, reverts, rfl, rfl, rfl⟩

/-- A job deleted as it was stored leaves the tables as they were. -/
theorem discarded_insert (wf : WellFormed s) {action : BulkJobs.BulkJobKind} {reverts : Option JobId} :
    ((s.insert actor action reverts rows).discarded s.nextJobId).jobs = s.jobs ∧
      ((s.insert actor action reverts rows).discarded s.nextJobId).rows = s.rows := by
  have oldJobs : s.jobs.filter (fun j => ¬j.id = s.nextJobId) = s.jobs :=
    List.filter_eq_self.mpr fun j member => by simpa using (wf.jobIds j member).ne
  have oldRows : s.rows.filter (fun r => ¬r.jobId = s.nextJobId) = s.rows := by
    refine List.filter_eq_self.mpr fun r member => ?_
    obtain ⟨j, memberJ, named⟩ := wf.rowJobs r member
    simpa [← named] using (wf.jobIds j memberJ).ne
  constructor
  · simp only [State.insert, State.discarded, Table.delete, List.filter_append, oldJobs]
    simp
  · simp only [State.insert, State.discarded, Table.delete, List.filter_append, oldRows]
    simp only [List.append_right_eq_self, List.filter_eq_nil_iff, List.mem_map]
    rintro r ⟨⟨row, i⟩, _, rfl⟩
    simp

/-- A revert that is refused, or can't be audited, leaves the tables as they were. -/
theorem insert_error (wf : WellFormed s) {failure : RevertFailure}
    (ran : insert s actor job rows audited = (.error failure, after)) : after.jobs = s.jobs ∧
      after.rows = s.rows := by
  unfold insert at ran
  split at ran
  next =>
    cases ran
    exact ⟨rfl, rfl⟩
  next stored taken =>
    cases audited with
    | true => simp at ran
    | false =>
      simp only [Bool.false_eq_true, if_false, Prod.mk.injEq] at ran
      obtain ⟨_, rfl⟩ := ran
      obtain ⟨action, _, rfl⟩ := revert_some taken
      exact discarded_insert wf

end BulkJobService

/-- The database as it keeps any job: numbered apart, its tables well formed, and a bulk action's rows naming
their accounts. -/
structure Database (Input : Type) where
  state : State Input Snapshot
  wellFormed : WellFormed state
  numbered : state.Numbered
  targeted : state.Targeted

/-- Whatever any run reaches, its bulk actions stored with the accounts they are of. -/
def Database.of_reach {Env : Type} {runner : BulkJobs.Runner Input Snapshot Env} {s : State Input Snapshot}
    {meets : State Input Snapshot → BulkJobs.Action Input Env → Prop}
    (names : ∀ s a, meets s a → a.NamesTargets)
    (reach : (BulkJobs.service runner).Reach meets s) : Database Input where
  state := s
  wellFormed := .of_reach reach
  numbered := .of_reach reach
  targeted := .of_reach names reach

/-- Why a revert of this plan is to be refused. -/
inductive MustRefuse (cache : Cache) (plan : RevertPlan) (request : BulkJobRevertRequest) : Prop
  | stale (differs : request.previewToken ≠ plan.token)
  | nothing (none : ∀ r, ¬Chosen plan request r)
  | unacknowledged (r : JudgedRow) (chosen : Chosen plan request r) (id : String) (readds : id ∈ r.readds)
      (guarded : cache.Protects id) (unasked : request.acknowledgeProtected = false)

section Claim
variable (env : Env) (cache : Cache) (host : Host) (asInput : RevertInput → Input)
    (db db' : Database Input) (w : World)
  (actor : JobActor) (job : JobRecord) (request : BulkJobRevertRequest) (audited : Bool)

/-- The plan partitions the job's rows; the revert stored is of exactly the rows chosen, in order; a
request that ends without one leaves the tables as they were; and what must be refused is. -/
structure Exact : Prop where
  partition : ∀ plan, BulkJobService.plan env cache host db.state w job = .ok plan →
    Partitions (rowsOf db.state job.id) plan
  stored : ∀ id after, BulkJobService.revert env cache host asInput db.state db'.state w actor job
    request audited =
      (.ok id, after) →
    ∃ plan action, BulkJobService.plan env cache host db.state w job = .ok plan ∧
      BulkJobs.bulkRevertActions job.action = some action ∧ id = db'.state.nextJobId ∧
      let rows := (rowsOf db.state job.id).filterMap (expectedRow asInput job.id plan request)
      after.jobs = (db'.state.insert actor action (some job.id) rows).jobs ∧
        after.rows = (db'.state.insert actor action (some job.id) rows).rows
  kept : ∀ failure after, BulkJobService.revert env cache host asInput db.state db'.state w actor
    job request audited =
      (.error failure, after) →
    after.jobs = db'.state.jobs ∧ after.rows = db'.state.rows
  refused : ∀ plan, BulkJobService.plan env cache host db.state w job = .ok plan →
    MustRefuse cache plan request →
    ∃ failure after, BulkJobService.revert env cache host asInput db.state db'.state w actor job
      request audited =
      (.error failure, after)

/-- The request shows the plan the job's rows come to now, acknowledges no protected group, and the
first such group that the rows chosen put users back in has no name; the plan could be made and its
revert be stored. -/
structure Unnamed (action : BulkRevertableAction) : Prop where
  reverts : revertable job.action = some action
  planned : (BulkJobService.plan env cache host db.state w job).isOk = true
  previewed : request.previewToken = planToken host job.id (laneRows env cache db.state job.id action .revert)
    (laneRows env cache db.state job.id action .modified)
  unacknowledged : request.acknowledgeProtected = false
  unnamed : (selectedReadds env cache db.state job.id action request).findSome? cache.protectedName = some ""
  granted : BulkJobService.Grants db'.state actor job
  audited : audited = true

variable {env cache host asInput db db' w actor job request audited}

/-- A plan made is the plan of what the database had, for a job no reason refuses. -/
theorem plan_ok {plan : RevertPlan} (made : BulkJobService.plan env cache host db.state w job = .ok plan) :
    db.state.refusal job = none ∧ ∃ action, revertable job.action = some action ∧
      PlanOf env cache host db.state job.id action plan := by
  unfold BulkJobService.plan at made
  split at made
  next => cases made
  next granted =>
    split at made
    next => cases made
    next action reverts =>
      split at made
      next => cases made
      next plan' ran =>
        cases made
        exact ⟨granted, action, reverts, yields_planRevert w plan ran⟩

theorem targets_of_plan {plan : RevertPlan}
    (made : BulkJobService.plan env cache host db.state w job = .ok plan)
    (stored : ∃ j ∈ db.state.jobs, j.link = job.link) : ∀ r ∈ rowsOf db.state job.id, r.targetId.isSome := by
  intro r ofJob
  obtain ⟨j, member, same⟩ := stored
  obtain ⟨named, actions, reverts⟩ := BulkJobs.JobRecord.link_eq.mp same
  obtain ⟨bulk, revertable, _⟩ := BulkJobs.revertRefusal_eq_none.mp (plan_ok made).1
  obtain ⟨inRows, owned⟩ := mem_rowsOf.mp ofJob
  refine db.targeted r inRows j member (owned.trans named.symm) (actions ▸ revertable) ?_
  rw [reverts]
  simpa using bulk

/-- The token doesn't depend on how the plan's lists are sorted. -/
theorem planToken_perm {id : JobId} {revert revert' modified modified' : List JudgedRow}
    (reverts : revert.Perm revert')
    (modifies : modified.Perm modified') :
    planToken host id revert modified = planToken host id revert' modified' := by
  unfold planToken previewToken
  rw [Sorting.sort_perm (modifies.map _), Sorting.sort_perm ((reverts.map _).map String.toLower)]

/-- A job that can be reverted has a plan, its reads all answered. -/
theorem plan_isOk (granted : db.state.refusal job = none) {action : BulkRevertableAction}
    (reverts : revertable job.action = some action) (read : cache.fault = none)
    (answered : ∀ site, env.faults site = none) :
    (BulkJobService.plan env cache host db.state w job).isOk = true := by
  obtain ⟨plan, w', ran⟩ := answers_planRevert answered host db.state job.id action read w
  simp [BulkJobService.plan, granted, reverts, ran, Except.isOk, Except.toBool]

/-- A revert stored has the rows its request chose of the plan. -/
theorem revert_ok {id : JobId} {after : State Input Snapshot}
    (ran : BulkJobService.revert env cache host asInput db.state db'.state w actor job request
      audited = (.ok id, after)) :
    ∃ plan, BulkJobService.plan env cache host db.state w job = .ok plan ∧
      chooseRows plan request = .ok (chosenRows plan request) ∧
      BulkJobService.insert db'.state actor job
      ((chosenRows plan request).map (BulkJobService.rowInput asInput job.id))
        audited = (.ok id, after) := by
  unfold BulkJobService.revert at ran
  split at ran
  next => cases ran
  next plan made =>
    split at ran
    next => cases ran
    next chosen chose =>
      obtain ⟨_, rfl, _⟩ := chooseRows_ok.mp chose
      exact ⟨plan, made, chose, ran⟩

/-- A revert that fails leaves the tables as they were. -/
theorem revert_error {failure : RevertFailure} {after : State Input Snapshot}
    (ran : BulkJobService.revert env cache host asInput db.state db'.state w actor job request audited =
      (.error failure, after)) : after.jobs = db'.state.jobs ∧ after.rows = db'.state.rows := by
  unfold BulkJobService.revert at ran
  split at ran
  next =>
    cases ran
    exact ⟨rfl, rfl⟩
  next =>
    split at ran
    next =>
      cases ran
      exact ⟨rfl, rfl⟩
    next => exact BulkJobService.insert_error db'.wellFormed ran

/-- Some chosen row puts its user back in a group AD protects exactly where there is a first such group. -/
theorem guarded_iff (request : BulkJobRevertRequest) {plan : RevertPlan} {action : BulkRevertableAction}
    (is : PlanOf env cache host db.state job.id action plan) :
    ((selectedReadds env cache db.state job.id action request).findSome? cache.protectedName).isSome ↔
      ∃ r, Chosen plan request r ∧ ∃ id ∈ r.readds, cache.Protects id := by
  simp only [List.findSome?_isSome_iff, Cache.protectedName_isSome, selectedReadds, List.mem_flatMap]
  rw [← is.chosen_eq db.numbered]
  constructor
  · rintro ⟨id, ⟨c, chosen, readds⟩, guarded⟩
    exact ⟨c.1, exists_chosenRows.mpr ⟨c, chosen, rfl⟩, id, readds, guarded⟩
  · rintro ⟨r, chosen, id, readds, guarded⟩
    obtain ⟨c, member, rfl⟩ := exists_chosenRows.mp chosen
    exact ⟨id, ⟨c, member, readds⟩, guarded⟩

/-- What must be refused is, unless the first protected group has no name. -/
theorem refused_of_named (named : ¬∃ action, Unnamed env cache host db db' w actor job request audited action)
    {plan : RevertPlan} (made : BulkJobService.plan env cache host db.state w job = .ok plan)
    (must : MustRefuse cache plan request) :
    ∃ failure after, BulkJobService.revert env cache host asInput db.state db'.state w actor job
      request audited =
      (.error failure, after) := by
  cases ran : BulkJobService.revert env cache host asInput db.state db'.state w actor job request audited with
  | mk answer after =>
    cases answer with
    | error failure => exact ⟨failure, after, rfl⟩
    | ok id =>
      obtain ⟨plan', made', chose, inserted⟩ := revert_ok ran
      cases made.symm.trans made'
      obtain ⟨fresh, _, left, acknowledged⟩ := chooseRows_ok.mp chose
      obtain ⟨_, action, reverts, is⟩ := plan_ok made
      cases must with
      | stale differs => exact absurd fresh differs
      | nothing none =>
        obtain ⟨c, member⟩ := List.exists_mem_of_ne_nil _ left
        exact absurd (exists_chosenRows.mpr ⟨c, member, rfl⟩) (none c.1)
      | unacknowledged r chosen group readds guarded unasked =>
        have first := (guarded_iff request is).mpr ⟨r, chosen, group, readds, guarded⟩
        obtain ⟨name, isName⟩ := Option.isSome_iff_exists.mp first
        have empty : name = "" := by
          by_contra given
          have yes := acknowledged name ((is.guardedGroup_eq db.numbered).trans isName) given
          rw [unasked] at yes
          cases yes
        obtain ⟨granted, wrote⟩ := (BulkJobService.insert_ok_iff _).mp ⟨id, congrArg Prod.fst inserted⟩
        refine absurd ⟨action, ?_⟩ named
        exact ⟨reverts, by rw [made]; rfl, fresh.trans (is.token.trans
          (planToken_perm is.revert is.modified)), unasked,
          empty ▸ isName, granted, wrote⟩

/-- Where the first protected group has no name, the revert is stored unasked. -/
theorem stored_of_unnamed (asInput : RevertInput → Input) {action : BulkRevertableAction}
    (unnamed : Unnamed env cache host db db' w actor job request audited action) :
    ∃ plan, BulkJobService.plan env cache host db.state w job = .ok plan ∧ MustRefuse cache plan request ∧
      ∃ id, (BulkJobService.revert env cache host asInput db.state db'.state w actor job
        request audited).1 = .ok id := by
  cases made : BulkJobService.plan env cache host db.state w job with
  | error failure =>
    have planned := unnamed.planned
    rw [made] at planned
    cases planned
  | ok plan =>
    obtain ⟨_, action', reverts, is⟩ := plan_ok made
    cases unnamed.reverts.symm.trans reverts
    obtain ⟨r, chosen, group, readds, guarded⟩ :=
      (guarded_iff request is).mp (by rw [unnamed.unnamed]; rfl)
    have left : chosenRows plan request ≠ [] := by
      obtain ⟨c, member, _⟩ := exists_chosenRows.mp chosen
      exact List.ne_nil_of_mem member
    have chose : chooseRows plan request = .ok (chosenRows plan request) := by
      refine chooseRows_ok.mpr ⟨?_, rfl, left, fun name first given => ?_⟩
      · exact unnamed.previewed.trans (is.token.trans (planToken_perm is.revert is.modified)).symm
      · rw [is.guardedGroup_eq db.numbered, unnamed.unnamed] at first
        exact absurd (Option.some.inj first).symm given
    refine ⟨plan, rfl, .unacknowledged r chosen group readds guarded unnamed.unacknowledged, ?_⟩
    obtain ⟨id, inserted⟩ := (BulkJobService.insert_ok_iff ((chosenRows plan request).map
      (BulkJobService.rowInput asInput job.id))).mpr ⟨unnamed.granted, unnamed.audited⟩
    refine ⟨id, ?_⟩
    unfold BulkJobService.revert
    rw [made]
    dsimp only
    rw [chose]
    exact inserted

/-- A revert stores exactly the rows chosen of the plan, and refuses what it must, unless the first
protected group it puts users back in is one the cache has no name for. -/
theorem revert_exact_iff (stored : ∃ j ∈ db.state.jobs, j.link = job.link) :
    Exact env cache host asInput db db' w actor job request audited ↔
      ¬∃ action, Unnamed env cache host db db' w actor job request audited action := by
  constructor
  · rintro exact_ ⟨action, unnamed⟩
    obtain ⟨plan, made, must, id, ran⟩ := stored_of_unnamed asInput unnamed
    obtain ⟨failure, after, refused⟩ := exact_.refused plan made must
    rw [refused] at ran
    cases ran
  · intro named
    refine ⟨fun plan made => ?_, fun id after ran => ?_, fun failure after ran => revert_error ran,
      fun plan made must => refused_of_named named made must⟩
    · obtain ⟨_, action, _, is⟩ := plan_ok made
      exact partitions is db.numbered (targets_of_plan made stored)
    · obtain ⟨plan, made, _, inserted⟩ := revert_ok ran
      obtain ⟨_, action, _, is⟩ := plan_ok made
      rw [is.rows_eq db.numbered] at inserted
      obtain ⟨opposite, reverts, given, jobs, rows⟩ := BulkJobService.insert_ok inserted
      exact ⟨plan, opposite, made, reverts, given, jobs, rows⟩

end Claim

def quiet : Env where
  lower t := t
  spelling := Provider.rfcSpelling
  objects := .none
  cachedOus := []
  groups := { get := fun _ => none, ids := nofun }
  events := []
  now := 2
  clock := by decide
  faults _ := none
  provider := ⟨none, fun _ => none⟩
  member _ := none
  groupAudited _ := true
  cacheRefreshed := true

def removedUser : CachedUser where
  objectGuid := "9b2f6c1e-5a37-4e0f-8d21-7c4a1b9e3f55"
  distinguishedName := text "CN=Ada,OU=Staff"
  displayName := some "Ada"
  samAccountName := some "ada"
  enabled := true
  accountExpiresAt := none
  passwordMustChange := false
  passwordNeverExpires := false
  raw
    | .text _ | .manager => none
    | .postOfficeBox => []
    | .country => (none, none, none)
  officeRead := true
  uSNChanged := none

/-- The cache with the domain's administrators by this name, their user no longer among them. -/
def cacheNaming (name : String) : Cache where
  users := [removedUser]
  userIds := List.nodup_singleton _
  memberships := []
  groups :=
    [⟨"0f3c2d1b-77aa-4c5e-9b10-2f6e8d4c1a90", name, ⟨[], some (text "S-1-5-21-1-2-3-512"), some (text "1")⟩⟩]
  groupIds := List.nodup_singleton _
  targetName _ := none
  fault := none

/-- The digest is that of the one preview there is. -/
def previewHost : Host where
  localeLe a b := decide (a ≤ b)
  sha256 _ := "6ZlCx_GkcoQ_05HEhCgZg6rJgwQ-ImS395Mkcs6x0ME"

def removal : JobRecord where
  id := 0
  actor := BulkJobs.operator
  action := .userGroupRemove
  revertsJobId := none
  status := .finished
  pauseReason := none
  runToken := none
  heartbeatAt := 0
  finishedAt := some 0

def removalRow : RowRecord RevertInput Snapshot where
  id := 0
  jobId := 0
  ordinal := 0
  targetId := some "9b2f6c1e-5a37-4e0f-8d21-7c4a1b9e3f55"
  input := { jobId := 0, before := .empty, after := .empty, ranAt := none, force := false }
  afterOrdinal := none
  status := .succeeded
  runToken := none
  attempts := 1
  errorCode := none
  errorMessage := none
  before := some { Snapshot.empty with groups := [⟨"0f3c2d1b-77aa-4c5e-9b10-2f6e8d4c1a90", "Admins", true⟩] }
  after := some { Snapshot.empty with groups := [⟨"0f3c2d1b-77aa-4c5e-9b10-2f6e8d4c1a90", "Admins", false⟩] }
  finishedAt := some 0

def removedState : State RevertInput Snapshot :=
  { State.empty with nextJobId := 1, nextRowId := 1, jobs := [removal], rows := [removalRow] }

def removed : Database RevertInput where
  state := removedState
  wellFormed := by constructor <;> simp [removedState, State.empty, removal, removalRow, Table.Keyed]
  numbered := by simp [State.Numbered, removedState, Table.Keyed]
  targeted := by simp [State.Targeted, removedState, removalRow]

def unacknowledged : BulkJobRevertRequest where
  previewToken := "6ZlCx_GkcoQ_05HEhCgZg6rJgwQ-ImS395Mkcs6x0ME"
  acknowledgeProtected := false
  includes := .ids []
  previewed := by decide

def nowhere : World where
  directory := .empty (.listed [] [] nofun)
  rest _ :=
    { pwdLastSet := 1, raw := removedUser.raw, memberOf := [], primaryGroupID := none, uSNChanged := none }

theorem lower_user : "9b2f6c1e-5a37-4e0f-8d21-7c4a1b9e3f55".toLower =
    "9b2f6c1e-5a37-4e0f-8d21-7c4a1b9e3f55" := by
  decide +kernel

/-- The one row is judged as the job left it: its user isn't in the group. -/
theorem selectedReadds_removed (name : String) :
    selectedReadds quiet (cacheNaming name) removedState removal.id .userGroupRemove unacknowledged =
      ["0f3c2d1b-77aa-4c5e-9b10-2f6e8d4c1a90".toLower] := by
  have rows : rowsOf removedState removal.id = [removalRow] := by
    simp [rowsOf, removedState, removalRow, removal]
  have user : (cacheNaming name).user "9b2f6c1e-5a37-4e0f-8d21-7c4a1b9e3f55" = some removedUser := by
    simp [Cache.user, Table.find, cacheNaming, removedUser, lower_user]
  obtain ⟨c, made⟩ : ∃ c, changedRow removalRow = some c := ⟨_, rfl⟩
  have planned : (plannedRow (cacheNaming name) c).targetId = "9b2f6c1e-5a37-4e0f-8d21-7c4a1b9e3f55" := by
    cases made
    exact lower_user
  have candidate : candidateOf quiet (cacheNaming name) .userGroupRemove c =
    some ⟨plannedRow (cacheNaming name) c,
      cachedNow (cacheNaming name) .userGroupRemove removedUser "9b2f6c1e-5a37-4e0f-8d21-7c4a1b9e3f55"
        (refNow quiet (parentOf removedUser)) (some (refNow quiet none))⟩ := by
    simp only [candidateOf, planned, user]
    rfl
  unfold selectedReadds selected touchedNow candidates changedRows
  rw [rows, List.filterMap_cons_some made, List.filterMap_nil, List.filterMap_cons_some candidate,
    List.filterMap_nil]
  cases made
  rfl

theorem first_removed (name : String) :
    (selectedReadds quiet (cacheNaming name) removed.state removal.id .userGroupRemove
      unacknowledged).findSome?
      (cacheNaming name).protectedName = some name := by
  have named : (cacheNaming name).protectedName "0f3c2d1b-77aa-4c5e-9b10-2f6e8d4c1a90".toLower = some name :=
    Cache.protectedName_eq_some.mpr ⟨_, List.mem_cons_self, rfl, rfl, rfl⟩
  change (selectedReadds quiet (cacheNaming name) removedState removal.id .userGroupRemove
    unacknowledged).findSome? _ = _
  rw [selectedReadds_removed, List.findSome?_cons, named]

theorem planned_removed (name : String) :
    (BulkJobService.plan quiet (cacheNaming name) previewHost removed.state nowhere removal).isOk = true :=
  plan_isOk (by decide) rfl rfl fun _ => rfl

theorem granted_removed : BulkJobService.Grants removed.state BulkJobs.operator removal := by
  unfold BulkJobService.Grants
  rfl

/-- A user is put back among the domain's administrators unasked, where the cache has no name for
the group. -/
theorem unnamed_administrators : ¬Exact quiet (cacheNaming "") previewHost (fun input => input)
    removed removed nowhere BulkJobs.operator
    removal unacknowledged true := by
  intro exact_
  have unnamed : Unnamed quiet (cacheNaming "") previewHost removed removed nowhere BulkJobs.operator removal
      unacknowledged true .userGroupRemove :=
    ⟨rfl, planned_removed "", rfl, rfl, first_removed "", granted_removed, rfl⟩
  obtain ⟨plan, made, must, id, ran⟩ := stored_of_unnamed (fun input => input) unnamed
  obtain ⟨failure, after, refused⟩ := exact_.refused plan made must
  rw [refused] at ran
  cases ran

/-- Named, they are put back only where the operator says so. -/
theorem revert_exact_iff_named : Exact quiet (cacheNaming "Domain Admins") previewHost
    (fun input => input) removed removed nowhere
    BulkJobs.operator removal unacknowledged true := by
  refine (revert_exact_iff ⟨removal, List.mem_cons_self, rfl⟩).mpr ?_
  rintro ⟨action, unnamed⟩
  cases unnamed.reverts
  have named := (first_removed "Domain Admins").symm.trans unnamed.unnamed
  exact absurd (Option.some.inj named) (by decide)

end OpenAduc.Reverts
