import OpenAduc.Reverts.Plan

namespace OpenAduc.Reverts
open Naming (Text text)
open Provider (Guid)
open BulkJobs (JobId RowRecord State)
open Attempt (Yields yields_pure yields_chain yields_call)

section Reads
variable {env : Env} {cache : Cache} {action : BulkRevertableAction}

theorem yields_atSite {α : Type} {P : α → Prop} {site : Site} {a : α} (meets : P a) :
    Yields P (atSite env site (pure a)) :=
  yields_call (yields_pure meets)

theorem yields_lookUpRef (dn : Option Text) : Yields (· = refNow env dn) (lookUpRef env dn) := by
  cases dn with
  | none => exact yields_pure rfl
  | some dn => exact yields_atSite rfl

theorem yields_managerNow (dn : Option (Option Text)) :
    Yields (· = dn.map (refNow env)) (managerNow env dn) := by
  cases dn with
  | none => exact yields_pure rfl
  | some dn =>
    refine yields_chain (yields_lookUpRef dn) fun ref same => ?_
    subst same
    exact yields_pure rfl

variable (env cache action)

/-- The row as it would be judged, where its account is still in the cache. -/
def candidateOf (r : ChangedRow) : Option Candidate :=
  let row := plannedRow cache r
  (cache.user row.targetId).map fun user =>
    ⟨row, cachedNow cache action user row.targetId (refNow env (parentOf user))
      ((cachedValues user .manager).map (refNow env))⟩

def goneOf (r : ChangedRow) : Option (PlannedRow × Text) :=
  let row := plannedRow cache r
  if (cache.user row.targetId).isSome then none else some (row, NOT_IN_DIRECTORY)

variable {env cache action}

theorem candidateOf_row {r : ChangedRow} {c : Candidate} (made : candidateOf env cache action r = some c) :
    c.row = plannedRow cache r := by
  obtain ⟨user, _, rfl⟩ := Option.map_eq_some_iff.mp made
  rfl

/-- The accounts read are the candidates, and the gone. -/
theorem yields_readAccounts (changed : List ChangedRow) :
    Yields (· = (changed.filterMap (candidateOf env cache action), changed.filterMap (goneOf cache)))
      (readAccounts env cache action changed) := by
  induction changed with
  | nil => exact yields_pure rfl
  | cons r rest ih =>
    rw [readAccounts]
    cases found : cache.user (plannedRow cache r).targetId with
    | none =>
      refine yields_chain ih fun read same => ?_
      subst same
      refine yields_pure ?_
      simp [candidateOf, goneOf, found]
    | some user =>
      refine yields_chain (yields_lookUpRef _) fun parent sameParent => ?_
      refine yields_chain (yields_managerNow _) fun manager sameManager => ?_
      refine yields_chain ih fun read same => ?_
      subst sameParent sameManager same
      refine yields_pure ?_
      simp [candidateOf, goneOf, found]

theorem yields_touchedRows {job : JobId} {candidates : List Candidate} :
    Yields (· = touchedBy env job action candidates) (touchedRows env job action candidates) := by
  unfold touchedRows
  split
  · exact yields_atSite rfl
  · exact yields_pure rfl

variable (env)

/-- Whether the account can't be put back where it was: there is no such OU now, or it takes no users. -/
def refusedOrigin (before : Snapshot) : Bool :=
  match originOf env before with
  | none => true
  | some ou => (userMoveRefusal ou).isSome

variable {env}

theorem yields_findOu (before : Snapshot) : Yields (· = originOf env before) (findOu env before) := by
  unfold findOu originOf
  cases before.parentGuid with
  | some guid =>
    refine yields_chain (yields_atSite (P := (· = env.objects.byGuid guid)) rfl) fun found same => ?_
    subst same
    exact yields_pure rfl
  | none =>
    cases before.parentDn with
    | none => exact yields_pure rfl
    | some dn => exact yields_atSite rfl

/-- A move is refused where its origin is. -/
theorem yields_refusal (before : Snapshot) :
    Yields (fun reason : Option Text => reason.isSome = refusedOrigin env before) (refusal env before) := by
  have origin : Yields (fun o : Except Text CachedOu => (∃ reason, o = .error reason) ↔
    refusedOrigin env before = true)
      (originOu env before) := by
    refine yields_chain (yields_findOu before) fun ou same => ?_
    subst same
    unfold refusedOrigin
    cases originOf env before with
    | none => exact yields_pure (by simp)
    | some ou =>
      dsimp only
      cases userMoveRefusal ou with
      | none => exact yields_pure (by simp)
      | some refused => exact yields_pure (by simp)
  refine yields_chain origin fun o is => ?_
  cases o with
  | error reason => exact yields_pure (is.mp ⟨reason, rfl⟩).symm
  | ok ou =>
    refine yields_pure ?_
    have open_ : ¬refusedOrigin env before = true := fun refused => nomatch (is.mpr refused).choose_spec
    simpa using open_

/-- Rows moved from the same place are refused together. -/
theorem refusedOrigin_congr {before before' : Snapshot}
    (same : originKey env before = originKey env before') :
    refusedOrigin env before = refusedOrigin env before' := by
  have origins : originOf env before = originOf env before' := by
    unfold originKey at same
    unfold originOf
    cases guid : before.parentGuid with
    | some g =>
      rw [guid] at same
      cases guid' : before'.parentGuid with
      | some g' =>
        rw [guid'] at same
        cases same
        rfl
      | none => simp [guid'] at same
    | none =>
      rw [guid] at same
      cases guid' : before'.parentGuid with
      | some g' => simp [guid'] at same
      | none =>
        rw [guid'] at same
        have folded : before.parentDn.map env.lower = before'.parentDn.map env.lower := Sum.inr.inj same
        cases dn : before.parentDn with
        | none =>
          rw [dn] at folded
          simp [Option.map_eq_none_iff.mp folded.symm]
        | some d =>
          rw [dn] at folded
          obtain ⟨d', dn', equal⟩ := Option.map_eq_some_iff.mp folded.symm
          simp only [dn', Option.bind_some, sameDn, equal]
  unfold refusedOrigin
  rw [origins]

/-- Every answer kept is every row's it is for. -/
def SharedFor (env : Env) (refusals : List (OriginKey × Option Text)) : Prop :=
  ∀ before reason, Assoc.get refusals (originKey env before) = some reason →
    reason.isSome = refusedOrigin env before

/-- Refusals kept by origin are those asked for anew. -/
theorem yields_sharedRefusal {refusals : List (OriginKey × Option Text)}
    (shared : SharedFor env refusals) (before : Snapshot) :
    Yields (fun answer => answer.1.isSome = refusedOrigin env before ∧ SharedFor env answer.2)
      (sharedRefusal env refusals before) := by
  unfold sharedRefusal
  cases kept : Assoc.get refusals (originKey env before) with
  | some reason => exact yields_pure ⟨shared before reason kept, shared⟩
  | none =>
    refine yields_chain (yields_refusal before) fun reason is => ?_
    refine yields_pure ⟨is, fun before' reason' got => ?_⟩
    rw [Assoc.get_set] at got
    split at got
    next same =>
      cases Option.some.inj got
      rw [is, refusedOrigin_congr same]
    next => exact shared before' reason' got

theorem yields_rowRefusal {refusals : List (OriginKey × Option Text)}
    (shared : SharedFor env refusals) (before : Snapshot) :
    Yields (fun answer => (answer.1.isSome ↔ action = .userMove ∧ refusedOrigin env before = true) ∧
      SharedFor env answer.2)
      (rowRefusal env action refusals before) := by
  unfold rowRefusal
  by_cases move : action = .userMove
  · rw [if_pos move]
    intro w answer ran
    obtain ⟨is, kept⟩ := yields_sharedRefusal shared before w answer ran
    exact ⟨by rw [is]; simp [move], kept⟩
  · rw [if_neg move]
    exact yields_pure ⟨by simp [move], shared⟩

end Reads

/-- Where a row of the plan stands. -/
inductive Lane
  | revert
  | modified
  | unchanged
  | notRevertible
  deriving DecidableEq, Repr

section Lanes
variable (env : Env) (touched : String → Option Touched) (action : BulkRevertableAction)

/-- The list a row is put in, by its verdict and by where its account was. -/
def lane (c : Candidate) : Lane :=
  match (c.verdict env touched action).kind with
  | .unchanged => .unchanged
  | .modified => if action = .userMove ∧ refusedOrigin env c.row.before then .notRevertible else .modified
  | .revert => if action = .userMove ∧ refusedOrigin env c.row.before then .notRevertible else .revert

def inLane (l : Lane) (candidates : List Candidate) : List Candidate :=
  candidates.filter fun c => lane env touched action c = l

def judged (c : Candidate) : JudgedRow := judgedRow action c (c.verdict env touched action)

/-- The plan with these rows judged too, each in its own list, in order. -/
structure JudgedTo (candidates : List Candidate) (plan plan' : Judging) : Prop where
  revert : plan'.revert = plan.revert ++ (inLane env touched action .revert candidates).map
    (judged env touched action)
  modified : plan'.modified = plan.modified ++ (inLane env touched action .modified candidates).map
    (judged env touched action)
  unchanged : plan'.unchanged = plan.unchanged ++
    (inLane env touched action .unchanged candidates).map (·.row)
  notRevertible : plan'.notRevertible.map Prod.fst =
    plan.notRevertible.map Prod.fst ++ (inLane env touched action .notRevertible candidates).map (·.row)
  shared : SharedFor env plan'.refusals

variable {env touched action}

theorem inLane_append {l : Lane} {some more : List Candidate} :
    inLane env touched action l (some ++ more) = inLane env touched action l some ++
      inLane env touched action l more :=
  List.filter_append ..

theorem JudgedTo.nothing {plan : Judging} (shared : SharedFor env plan.refusals) :
    JudgedTo env touched action [] plan plan := by
  constructor <;> simp [inLane, shared]

theorem JudgedTo.trans {some more : List Candidate} {plan plan₁ plan₂ : Judging}
    (first : JudgedTo env touched action some plan plan₁)
    (rest : JudgedTo env touched action more plan₁ plan₂) :
    JudgedTo env touched action (some ++ more) plan plan₂ where
  revert := by rw [rest.revert, first.revert, inLane_append, List.map_append, List.append_assoc]
  modified := by rw [rest.modified, first.modified, inLane_append, List.map_append, List.append_assoc]
  unchanged := by rw [rest.unchanged, first.unchanged, inLane_append, List.map_append, List.append_assoc]
  notRevertible := by
    rw [rest.notRevertible, first.notRevertible, inLane_append, List.map_append, List.append_assoc]
  shared := rest.shared

/-- One row is put in the list of its lane. -/
theorem yields_judgeRow {plan : Judging} (shared : SharedFor env plan.refusals) (c : Candidate) :
    Yields (JudgedTo env touched action [c] plan) (judgeRow env touched action plan c) := by
  unfold judgeRow
  dsimp only
  by_cases same : (c.verdict env touched action).kind = .unchanged
  · have here : lane env touched action c = .unchanged := by simp [lane, same]
    rw [if_pos same]
    refine yields_pure ?_
    constructor <;> simp [inLane, here, shared]
  · rw [if_neg same]
    refine yields_chain (yields_rowRefusal shared c.row.before) fun answer is => ?_
    obtain ⟨reason, refusals⟩ := answer
    obtain ⟨is, kept⟩ := is
    dsimp only at is kept ⊢
    cases reason with
    | some reason =>
      have refused := is.mp rfl
      have here : lane env touched action c = .notRevertible := by
        unfold lane
        cases kind : (c.verdict env touched action).kind with
        | unchanged => exact absurd kind same
        | modified => simp [refused]
        | revert => simp [refused]
      refine yields_pure ?_
      constructor <;> simp [inLane, here, kept]
    | none =>
      have open_ : ¬(action = .userMove ∧ refusedOrigin env c.row.before = true) := fun refused => by
        simpa using is.mpr refused
      cases kind : (c.verdict env touched action).kind with
      | unchanged => exact absurd kind same
      | modified =>
        have here : lane env touched action c = .modified := by simp only [lane, kind, if_neg open_]
        refine yields_pure ?_
        constructor <;> simp [inLane, here, kept, judged]
      | revert =>
        have here : lane env touched action c = .revert := by simp only [lane, kind, if_neg open_]
        refine yields_pure ?_
        constructor <;> simp [inLane, here, kept, judged]

/-- Every row is put in the list of its lane, in order. -/
theorem yields_judgeRows {plan : Judging} (shared : SharedFor env plan.refusals)
    (candidates : List Candidate) :
    Yields (JudgedTo env touched action candidates plan) (judgeRows env touched action plan candidates) := by
  induction candidates generalizing plan with
  | nil => exact yields_pure (.nothing shared)
  | cons c rest ih =>
    refine yields_chain (yields_judgeRow shared c) fun plan₁ first => ?_
    intro w plan₂ ran
    exact first.trans (ih first.shared w plan₂ ran)

variable (env touched action) in
/-- Each row is in one lane. -/
theorem lanes_perm (candidates : List Candidate) :
    (inLane env touched action .revert candidates ++ inLane env touched action .modified candidates ++
      inLane env touched action .unchanged candidates ++
      inLane env touched action .notRevertible candidates).Perm candidates := by
  induction candidates with
  | nil => exact .refl _
  | cons c rest ih =>
    have others : ∀ l, lane env touched action c ≠ l → inLane env touched action l (c :: rest) =
      inLane env touched action l rest :=
      fun l other => List.filter_cons_of_neg (by simpa using other)
    have own : ∀ l, lane env touched action c = l → inLane env touched action l (c :: rest) =
      c :: inLane env touched action l rest :=
      fun l here => List.filter_cons_of_pos (by simpa using here)
    have placed : ∀ {front back : List Candidate}, (front ++ back).Perm rest →
      (front ++ c :: back).Perm (c :: rest) :=
      fun whole => List.perm_middle.trans (whole.cons c)
    cases here : lane env touched action c with
    | revert =>
      rw [own _ here, others _ (by simp [here]), others _ (by simp [here]), others _ (by simp [here])]
      exact ih.cons c
    | modified =>
      rw [own _ here, others _ (by simp [here]), others _ (by simp [here]), others _ (by simp [here])]
      simp only [List.append_assoc, List.cons_append] at ih ⊢
      exact placed ih
    | unchanged =>
      rw [own _ here, others _ (by simp [here]), others _ (by simp [here]), others _ (by simp [here])]
      rw [List.append_assoc _ (c :: _), List.cons_append]
      rw [List.append_assoc _ (inLane _ _ _ .unchanged _)] at ih
      exact placed ih
    | notRevertible =>
      rw [own _ here, others _ (by simp [here]), others _ (by simp [here]), others _ (by simp [here])]
      exact placed ih

end Lanes

section PlanOf
variable {Input : Type}

/-- The rows the job changed, in order. -/
def changedRows (s : State Input Snapshot) (job : JobId) : List ChangedRow :=
  (rowsOf s job).filterMap changedRow

variable (env : Env) (cache : Cache) (host : Host) (s : State Input Snapshot) (job : JobId)
    (action : BulkRevertableAction)

def candidates : List Candidate := (changedRows s job).filterMap (candidateOf env cache action)

def touchedNow : String → Option Touched :=
  Assoc.get (touchedBy env job action (candidates env cache s job action))

def laneRows (l : Lane) : List JudgedRow :=
  (inLane env (touchedNow env cache s job action) action l (candidates env cache s job action)).map
    (judged env (touchedNow env cache s job action) action)

/-- A plan whose lists are the rows of their lanes, sorted somehow. -/
structure PlanOf (plan : RevertPlan) : Prop where
  revert : plan.revert.Perm (laneRows env cache s job action .revert)
  modified : plan.modified.Perm (laneRows env cache s job action .modified)
  unchanged : plan.unchanged.Perm ((laneRows env cache s job action .unchanged).map (·.toPlannedRow))
  notRevertible : (plan.notRevertible.map Prod.fst).Perm
    (((changedRows s job).filterMap (goneOf cache)).map Prod.fst ++
      (laneRows env cache s job action .notRevertible).map (·.toPlannedRow))
  excluded : plan.excluded = (rowsOf s job).length - (changedRows s job).length
  protectedGroups : plan.protectedGroups =
    if action = .userGroupRemove then
      cache.protectedGroups
        (readded (laneRows env cache s job action .revert ++ laneRows env cache s job action .modified))
    else []
  token : plan.token = planToken host job plan.revert plan.modified

variable {env cache host s job action}

/-- What planning comes to is the plan of the rows and the world. -/
theorem yields_planRevert : Yields (PlanOf env cache host s job action)
    (planRevert env cache host s job action) := by
  refine yields_chain (Q := fun _ => True) (fun _ _ _ => trivial) fun _ _ => ?_
  refine yields_chain (yields_readAccounts (changedRows s job)) fun read same => ?_
  subst same
  refine yields_chain yields_touchedRows fun touched same => ?_
  subst same
  have shared : SharedFor env [] := fun _ _ got => nomatch got
  refine yields_chain (yields_judgeRows shared (candidates env cache s job action)) fun judging lanes => ?_
  have revert : judging.revert = laneRows env cache s job action .revert := lanes.revert
  have modified : judging.modified = laneRows env cache s job action .modified := lanes.modified
  refine yields_pure ⟨?_, ?_, ?_, ?_, rfl, ?_, rfl⟩
  · rw [← revert]
    exact List.mergeSort_perm _ _
  · rw [← modified]
    exact List.mergeSort_perm _ _
  · refine (List.mergeSort_perm _ _).trans (.of_eq ?_)
    rw [lanes.unchanged]
    simp [laneRows, touchedNow, candidates, judged, judgedRow, Function.comp_def]
  · refine ((List.mergeSort_perm _ _).map Prod.fst).trans (.of_eq ?_)
    rw [lanes.notRevertible]
    simp [laneRows, touchedNow, candidates, judged, judgedRow, Function.comp_def]
  · dsimp only
    rw [revert, modified]

end PlanOf

section Answers
open Attempt (Answers answers_pure answers_bind answers_call)
variable {Input : Type} {env : Env} {cache : Cache} {host : Host} {s : State Input Snapshot} {job : JobId}
  {action : BulkRevertableAction} (answered : ∀ site, env.faults site = none)

include answered

theorem answers_atSite {α : Type} {site : Site} {a : α} : Answers (atSite env site (pure a)) :=
  answers_call (answered site) (answers_pure a)

theorem answers_lookUpRef (dn : Option Text) : Answers (lookUpRef env dn) := by
  cases dn with
  | none => exact answers_pure _
  | some dn => exact answers_atSite answered

/-- With every read answered the accounts are read. -/
theorem answers_readAccounts (changed : List ChangedRow) :
    Answers (readAccounts env cache action changed) := by
  induction changed with
  | nil => exact answers_pure _
  | cons r rest ih =>
    rw [readAccounts]
    cases cache.user (plannedRow cache r).targetId with
    | none => exact answers_bind ih fun _ => answers_pure _
    | some user =>
      refine answers_bind (answers_lookUpRef answered _) fun _ => answers_bind ?_ fun _ =>
        answers_bind ih fun _ => answers_pure _
      unfold managerNow
      split
      · exact answers_pure _
      · exact answers_bind (answers_lookUpRef answered _) fun _ => answers_pure _

theorem answers_originOu (before : Snapshot) : Answers (originOu env before) := by
  refine answers_bind ?_ fun found => ?_
  · unfold findOu
    split
    · exact answers_bind (answers_atSite answered) fun _ => answers_pure _
    · split
      · exact answers_pure _
      · exact answers_atSite answered
  · cases found with
    | none => exact answers_pure _
    | some ou =>
      dsimp only
      split <;> exact answers_pure _

theorem answers_rowRefusal {refusals : List (OriginKey × Option Text)} {before : Snapshot} :
    Answers (rowRefusal env action refusals before) := by
  unfold rowRefusal
  split
  · unfold sharedRefusal
    split
    · exact answers_pure _
    · refine answers_bind (answers_bind (answers_originOu answered before) fun origin => ?_)
        fun _ => answers_pure _
      cases origin <;> exact answers_pure _
  · exact answers_pure _

theorem answers_judgeRow {touched : String → Option Touched} {plan : Judging} {c : Candidate} :
    Answers (judgeRow env touched action plan c) := by
  unfold judgeRow
  dsimp only
  split
  · exact answers_pure _
  · refine answers_bind (answers_rowRefusal answered) fun answer => ?_
    obtain ⟨reason, refusals⟩ := answer
    cases reason with
    | some reason => exact answers_pure _
    | none =>
      dsimp only
      split <;> exact answers_pure _

theorem answers_judgeRows {touched : String → Option Touched} (candidates : List Candidate) :
    ∀ plan, Answers (judgeRows env touched action plan candidates) := by
  induction candidates with
  | nil => exact fun plan => answers_pure plan
  | cons c rest ih => exact fun plan => answers_bind (answers_judgeRow answered) ih

/-- A plan whose reads are all answered is made. -/
theorem answers_planRevert (host : Host) (s : State Input Snapshot) (job : JobId)
    (action : BulkRevertableAction)
    (read : cache.fault = none) : Answers (planRevert env cache host s job action) := by
  refine answers_bind (answers_call read (answers_pure _)) fun _ => ?_
  refine answers_bind (answers_readAccounts answered _) fun read => ?_
  refine answers_bind ?_ fun touched => answers_bind (answers_judgeRows answered _ _) fun _ => answers_pure _
  unfold touchedRows
  split
  · exact answers_atSite answered
  · exact answers_pure _

end Answers

end OpenAduc.Reverts
