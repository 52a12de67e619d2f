import OpenAduc.BulkJobs.Numbered
import OpenAduc.Lib.Sorting
import OpenAduc.Reverts.Planned
import OpenAduc.Reverts.Request

namespace OpenAduc.Reverts
open Naming (Text text)
open BulkJobs (JobId JobActor JobRecord RowRecord BulkJobRowInput State)

variable {Input : Type}

/-- A row the job changed, succeeding or partly. -/
def Changed (r : RowRecord Input Snapshot) : Prop :=
  (r.status = .succeeded ∨ r.status = .partially) ∧ r.before.isSome ∧ r.after.isSome

instance (r : RowRecord Input Snapshot) : Decidable (Changed r) := inferInstanceAs (Decidable (_ ∧ _ ∧ _))

/-- What a row of the plan is of one of the job's rows. -/
structure PlannedRow.OfRow (p : PlannedRow) (r : RowRecord Input Snapshot) : Prop where
  ordinal : p.ordinal = r.ordinal
  target : r.targetId.map String.toLower = some p.targetId
  before : r.before = some p.before
  after : r.after = some p.after
  ranAt : r.finishedAt.map Int.ofNat = p.ranAt

def RevertPlan.rows (plan : RevertPlan) : List PlannedRow :=
  plan.revert.map (·.toPlannedRow) ++ plan.modified.map (·.toPlannedRow) ++ plan.unchanged ++
    plan.notRevertible.map Prod.fst

/-- The plan's four lists together hold each row the job changed, once, as it is; the rows it counts as
excluded are the others. -/
structure Partitions (rows : List (RowRecord Input Snapshot)) (plan : RevertPlan) : Prop where
  exactly : (plan.rows.map (·.ordinal)).Perm ((rows.filter fun r => Changed r).map (·.ordinal))
  apart : (plan.rows.map (·.ordinal)).Nodup
  own : ∀ p ∈ plan.rows, ∃ r ∈ rows, Changed r ∧ p.OfRow r
  excluded : plan.excluded = (rows.filter fun r => ¬Changed r).length

section Rows
variable {s : State Input Snapshot} {job : JobId} {cache : Cache} {r : RowRecord Input Snapshot}

theorem mem_rowsOf : r ∈ rowsOf s job ↔ r ∈ s.rows ∧ r.jobId = job := by
  simp [rowsOf]

/-- A job's rows as they are read, in the order of their numbers. -/
theorem rowsOf_ordered (numbered : s.Numbered) : (rowsOf s job).Pairwise fun a b =>
    a.ordinal < b.ordinal := by
  have sorted : (rowsOf s job).Pairwise fun a b => a.ordinal ≤ b.ordinal :=
    Sorting.pairwise_sort RowRecord.ordinal _
  have apart : (rowsOf s job).Pairwise fun a b => a.ordinal ≠ b.ordinal := by
    have own : (s.rows.filter fun r => r.jobId = job).Pairwise fun a b => a.ordinal ≠ b.ordinal := by
      have keys : s.rows.Pairwise fun a b => (a.jobId, a.ordinal) ≠ (b.jobId, b.ordinal) :=
        List.pairwise_map.mp numbered
      refine List.pairwise_filter.mpr (keys.imp fun {a b} differ ofA ofB same => differ ?_)
      rw [of_decide_eq_true ofA, of_decide_eq_true ofB, same]
    exact (List.mergeSort_perm _ _).symm.pairwise own fun differ same => differ same.symm
  exact (sorted.and apart).imp fun {a b} both => lt_of_le_of_ne both.1 both.2

theorem ordinals_nodup (numbered : s.Numbered) : ((rowsOf s job).map (·.ordinal)).Nodup :=
  List.pairwise_map.mpr ((rowsOf_ordered numbered).imp fun less => less.ne)

theorem changedRow_eq_some {c : ChangedRow} : changedRow r = some c ↔
    (r.status = .succeeded ∨ r.status = .partially) ∧ r.before = some c.before ∧ r.after = some c.after ∧
      r.targetId = some c.targetId ∧ r.id = c.id ∧ r.ordinal = c.ordinal ∧ r.finishedAt = c.finishedAt := by
  unfold changedRow
  split
  next ran =>
    cases r.before <;> cases r.after <;> cases r.targetId <;> simp [ran]
    cases c
    simp
    tauto
  next other => simp [other]

theorem changedRow_isSome (target : r.targetId.isSome) : (changedRow r).isSome ↔ Changed r := by
  obtain ⟨targetId, is⟩ := Option.isSome_iff_exists.mp target
  unfold changedRow Changed
  split
  next ran => cases r.before <;> cases r.after <;> simp [is, ran]
  next other => simp [other]

theorem plannedRow_ofRow {c : ChangedRow} (made : changedRow r = some c) : (plannedRow cache c).OfRow r := by
  obtain ⟨_, before, after, target, _, ordinal, finished⟩ := changedRow_eq_some.mp made
  exact ⟨ordinal.symm, by rw [target]; rfl, before, after, by rw [finished]; rfl⟩

/-- Read with their accounts, the rows a job changed are the rows `Changed` says. -/
theorem changedRows_ordinals {rows : List (RowRecord Input Snapshot)}
    (targets : ∀ r ∈ rows, r.targetId.isSome) :
    (rows.filterMap changedRow).map (·.ordinal) = (rows.filter fun r => Changed r).map (·.ordinal) := by
  induction rows with
  | nil => rfl
  | cons r rest ih =>
    have others := ih fun q member => targets q (List.mem_cons_of_mem _ member)
    have own := changedRow_isSome (targets r List.mem_cons_self)
    cases made : changedRow r with
    | none =>
      have unchanged : ¬Changed r := fun changed => by
        rw [made] at own
        exact absurd (own.mpr changed) (by simp)
      rw [List.filterMap_cons_none made, List.filter_cons_of_neg (by simpa using unchanged), others]
    | some c =>
      have changed : Changed r := own.mp (by simp [made])
      rw [List.filterMap_cons_some made, List.filter_cons_of_pos (by simpa using changed),
        List.map_cons, List.map_cons, others,
        (changedRow_eq_some.mp made).2.2.2.2.2.1]

/-- Each row's account is in the cache or gone. -/
theorem accounts_perm (env : Env) (action : BulkRevertableAction) (changed : List ChangedRow) :
    ((changed.filterMap (candidateOf env cache action)).map (·.row) ++
      (changed.filterMap (goneOf cache)).map Prod.fst).Perm
      (changed.map (plannedRow cache)) := by
  induction changed with
  | nil => exact .refl _
  | cons c rest ih =>
    cases found : cache.user (plannedRow cache c).targetId with
    | none =>
      have none : candidateOf env cache action c = none := by simp [candidateOf, found]
      have gone : goneOf cache c = some (plannedRow cache c, NOT_IN_DIRECTORY) := by simp [goneOf, found]
      rw [List.filterMap_cons_none none, List.filterMap_cons_some gone]
      exact List.perm_middle.trans (ih.cons _)
    | some user =>
      have gone : goneOf cache c = none := by simp [goneOf, found]
      have some := Option.isSome_iff_exists.mp
        (show (candidateOf env cache action c).isSome by simp [candidateOf, found])
      obtain ⟨candidate, made⟩ := some
      rw [List.filterMap_cons_some made, List.filterMap_cons_none gone, List.map_cons, candidateOf_row made]
      exact ih.cons _

end Rows

section Partition
variable {env : Env} {cache : Cache} {host : Host} {s : State Input Snapshot} {job : JobId}
    {action : BulkRevertableAction}
  {plan : RevertPlan}

theorem laneRows_planned {l : Lane} : (laneRows env cache s job action l).map (·.toPlannedRow) =
    (inLane env (touchedNow env cache s job action) action l
      (candidates env cache s job action)).map (·.row) := by
  simp [laneRows, judged, judgedRow, Function.comp_def]

/-- The plan's lists together are the rows the job changed. -/
theorem PlanOf.rows_perm (is : PlanOf env cache host s job action plan) :
    plan.rows.Perm ((changedRows s job).map (plannedRow cache)) := by
  have lists :=
    (((is.revert.map (·.toPlannedRow)).append (is.modified.map (·.toPlannedRow))).append is.unchanged).append
    is.notRevertible
  have lanes :=
    (lanes_perm env (touchedNow env cache s job action) action
    (candidates env cache s job action)).map (·.row)
  simp only [List.map_append, ← laneRows_planned] at lanes
  refine lists.trans (.trans ?_ (accounts_perm env action _))
  refine .trans ?_ (lanes.append_right _)
  simp only [List.append_assoc]
  exact ((List.perm_append_comm.append_left _).append_left _).append_left _

/-- A plan has every changed row once: to revert, modified since, gone, or not revertible. -/
theorem partitions (is : PlanOf env cache host s job action plan) (numbered : s.Numbered)
    (targets : ∀ r ∈ rowsOf s job, r.targetId.isSome) : Partitions (rowsOf s job) plan := by
  have ordinals : (plan.rows.map (·.ordinal)).Perm
    (((rowsOf s job).filter fun r => Changed r).map (·.ordinal)) := by
    rw [← changedRows_ordinals targets]
    refine (is.rows_perm.map _).trans (.of_eq ?_)
    rw [List.map_map]
    rfl
  refine ⟨ordinals, ?_, fun p member => ?_, ?_⟩
  · exact ordinals.nodup_iff.mpr ((List.filter_sublist.map _).nodup (ordinals_nodup numbered))
  · obtain ⟨c, inside, rfl⟩ := List.mem_map.mp (is.rows_perm.mem_iff.mp member)
    obtain ⟨r, ofJob, made⟩ := List.mem_filterMap.mp inside
    exact ⟨r, ofJob, (changedRow_isSome (targets r ofJob)).mp (by simp [made]), plannedRow_ofRow made⟩
  · have changed := congrArg List.length (changedRows_ordinals targets)
    have split := List.length_eq_length_filter_add (l := rowsOf s job) fun r => decide (Changed r)
    simp only [List.length_map] at changed
    rw [is.excluded, changedRows, changed]
    simp only [decide_not]
    omega

end Partition

/-- Whether the operator includes the account, should it have changed since. -/
def BulkJobRevertRequest.Names (request : BulkJobRevertRequest) (id : String) : Prop :=
  match request.includes with
  | .all => True
  | .ids ids => id ∈ ids.map String.toLower

instance (request : BulkJobRevertRequest) : DecidablePred request.Names := fun id => by
  unfold BulkJobRevertRequest.Names
  cases request.includes with
  | all => exact inferInstanceAs (Decidable True)
  | ids ids => exact inferInstanceAs (Decidable (_ ∈ _))

/-- Whether the row numbered so is reverted, and whether it is forced. -/
def forceOf (plan : RevertPlan) (request : BulkJobRevertRequest) (ordinal : Nat) : Option Bool :=
  if ∃ r ∈ plan.revert, r.ordinal = ordinal then some false
  else if ∃ r ∈ plan.modified, r.ordinal = ordinal ∧ request.Names r.targetId then some true
  else none

/-- What of one of the job's rows its revert is to store. -/
def expectedRow (asInput : RevertInput → Input) (job : JobId) (plan : RevertPlan)
    (request : BulkJobRevertRequest)
    (r : RowRecord Input Snapshot) : Option (BulkJobRowInput Input) :=
  match r.targetId, r.before, r.after, forceOf plan request r.ordinal with
  | some targetId, some before, some after, some force =>
    some { targetId := some targetId.toLower
           input := asInput { jobId := job, before, after, ranAt := r.finishedAt.map Int.ofNat, force }
           after := none }
  | _, _, _, _ => none

section Choice
variable {env : Env} {cache : Cache} {host : Host} {s : State Input Snapshot} {job : JobId}
    {plan : RevertPlan}
  {touched : String → Option Touched} {action : BulkRevertableAction} {request : BulkJobRevertRequest}

variable (env touched action request) in
/-- What is chosen of a row, by its lane. -/
def pick (c : Candidate) : Option (JudgedRow × Bool) :=
  match lane env touched action c with
  | .revert => some (judged env touched action c, false)
  | .modified => if request.Names c.row.targetId then some (judged env touched action c, true) else none
  | _ => none

theorem pick_row {c : Candidate} {picked : JudgedRow × Bool}
    (is : pick env touched action request c = some picked) :
    picked.1 = judged env touched action c := by
  unfold pick at is
  split at is
  next =>
    cases is
    rfl
  next =>
    split at is
    · cases is
      rfl
    · cases is
  next => cases is

/-- What the request picks of the plan's lists is picked candidate by candidate. -/
theorem picks_perm (candidates : List Candidate) :
    ((inLane env touched action .revert candidates).map (fun c => (judged env touched action c, false)) ++
      ((inLane env touched action .modified candidates).filter fun c => request.Names c.row.targetId).map
        fun c => (judged env touched action c, true)).Perm
      (candidates.filterMap (pick env touched action request)) := by
  induction candidates with
  | nil => exact .refl _
  | cons c rest ih =>
    have others : ∀ l, lane env touched action c ≠ l → inLane env touched action l (c :: rest) =
      inLane env touched action l rest :=
      fun l other => List.filter_cons_of_neg (by simpa using other)
    have own : ∀ l, lane env touched action c = l → inLane env touched action l (c :: rest) =
      c :: inLane env touched action l rest :=
      fun l here => List.filter_cons_of_pos (by simpa using here)
    cases here : lane env touched action c with
    | revert =>
      have picked : pick env touched action request c =
        some (judged env touched action c, false) := by simp [pick, here]
      rw [own _ here, others _ (by simp [here]), List.filterMap_cons_some picked]
      exact ih.cons _
    | modified =>
      rw [others _ (by simp [here]), own _ here]
      by_cases named : request.Names c.row.targetId
      · have picked : pick env touched action request c =
          some (judged env touched action c, true) := by simp [pick, here, named]
        rw [List.filter_cons_of_pos (by simpa using named), List.map_cons, List.filterMap_cons_some picked]
        exact List.perm_middle.trans (ih.cons _)
      · have none : pick env touched action request c = none := by simp [pick, here, named]
        rw [List.filter_cons_of_neg (by simpa using named), List.filterMap_cons_none none]
        exact ih
    | unchanged =>
      have none : pick env touched action request c = none := by simp [pick, here]
      rw [others _ (by simp [here]), others _ (by simp [here]), List.filterMap_cons_none none]
      exact ih
    | notRevertible =>
      have none : pick env touched action request c = none := by simp [pick, here]
      rw [others _ (by simp [here]), others _ (by simp [here]), List.filterMap_cons_none none]
      exact ih

variable (env cache s job action request) in
/-- The rows to revert, in the job's order, by their lanes. -/
def selected : List (JudgedRow × Bool) :=
  (candidates env cache s job action).filterMap (pick env (touchedNow env cache s job action) action request)

theorem candidates_ordered (numbered : s.Numbered) :
    (candidates env cache s job action).Pairwise fun a b => a.row.ordinal < b.row.ordinal := by
  unfold candidates changedRows
  rw [List.filterMap_filterMap]
  refine (rowsOf_ordered numbered).filterMap _ fun q r less c made c' made' => ?_
  obtain ⟨d, changed, candidate⟩ := Option.bind_eq_some_iff.mp made
  obtain ⟨d', changed', candidate'⟩ := Option.bind_eq_some_iff.mp made'
  rw [candidateOf_row candidate, candidateOf_row candidate', (plannedRow_ofRow changed).ordinal,
    (plannedRow_ofRow changed').ordinal]
  exact less

theorem selected_ordered (numbered : s.Numbered) :
    (selected env cache s job action request).Pairwise fun a b => a.1.ordinal < b.1.ordinal := by
  refine (candidates_ordered numbered).filterMap _ fun c c' less picked is picked' is' => ?_
  rw [pick_row is, pick_row is']
  exact less

theorem forcedRows_eq : forcedRows plan request = plan.modified.filter fun r => request.Names r.targetId := by
  refine List.filter_congr fun r member => ?_
  rw [decide_eq_decide]
  unfold includedIds BulkJobRevertRequest.Names
  cases request.includes with
  | all => exact iff_of_true (List.mem_map_of_mem member) trivial
  | ids ids => exact Iff.rfl

/-- The rows chosen are those their lanes say, in the job's order. -/
theorem PlanOf.chosen_eq (is : PlanOf env cache host s job action plan) (numbered : s.Numbered) :
    chosenRows plan request = selected env cache s job action request := by
  have perm : (plan.revert.map (fun r => (r, false)) ++ (forcedRows plan request).map fun r => (r, true)).Perm
      (selected env cache s job action request) := by
    refine .trans ?_ (picks_perm _)
    rw [forcedRows_eq]
    refine ((is.revert.map _).append ((is.modified.filter _).map _)).trans (.of_eq ?_)
    rw [laneRows, laneRows, List.map_map, List.filter_map, List.map_map]
    rfl
  have ordered : (selected env cache s job action request).Pairwise fun a b => a.1.ordinal < b.1.ordinal :=
    selected_ordered numbered
  refine Sorting.sort_eq (fun c : JudgedRow × Bool => c.1.ordinal) perm (ordered.imp le_of_lt) ?_
  exact List.pairwise_map.mpr (ordered.imp fun less => less.ne)

variable (env cache action) in
def candidateFor (r : RowRecord Input Snapshot) : Option Candidate :=
  (changedRow r).bind (candidateOf env cache action)

theorem candidateFor_ofRow {r : RowRecord Input Snapshot} {c : Candidate}
    (is : candidateFor env cache action r = some c) :
    c.row.OfRow r := by
  obtain ⟨d, changed, candidate⟩ := Option.bind_eq_some_iff.mp is
  rw [candidateOf_row candidate]
  exact plannedRow_ofRow changed

theorem mem_candidates {c : Candidate} :
    c ∈ candidates env cache s job action ↔ ∃ r ∈ rowsOf s job, candidateFor env cache action r = some c := by
  rw [candidates, changedRows, List.filterMap_filterMap, List.mem_filterMap]
  rfl

/-- A row of a lane is the row of the job that has its number. -/
theorem exists_lane (numbered : s.Numbered) {r : RowRecord Input Snapshot}
    (ofJob : r ∈ rowsOf s job) (l : Lane)
    (P : String → Prop) :
    (∃ x ∈ laneRows env cache s job action l, x.ordinal = r.ordinal ∧ P x.targetId) ↔
      ∃ c, candidateFor env cache action r = some c ∧
      lane env (touchedNow env cache s job action) action c = l ∧
        P c.row.targetId := by
  constructor
  · rintro ⟨x, member, same, holds⟩
    obtain ⟨c, inside, rfl⟩ := List.mem_map.mp member
    obtain ⟨candidate, here⟩ := List.mem_filter.mp inside
    obtain ⟨q, ofJobQ, is⟩ := mem_candidates.mp candidate
    have one : q = r :=
      List.inj_on_of_nodup_map (ordinals_nodup numbered) ofJobQ ofJob
        ((candidateFor_ofRow is).ordinal.symm.trans same)
    exact ⟨c, one ▸ is, of_decide_eq_true here, holds⟩
  · rintro ⟨c, is, here, holds⟩
    refine ⟨judged env (touchedNow env cache s job action) action c, List.mem_map_of_mem ?_,
      (candidateFor_ofRow is).ordinal, holds⟩
    exact List.mem_filter.mpr ⟨mem_candidates.mpr ⟨r, ofJob, is⟩, decide_eq_true here⟩

/-- A row is forced as its own candidate is. -/
theorem PlanOf.forceOf_eq (is : PlanOf env cache host s job action plan) (numbered : s.Numbered)
    {r : RowRecord Input Snapshot} (ofJob : r ∈ rowsOf s job) :
    forceOf plan request r.ordinal =
      ((candidateFor env cache action r).bind
        (pick env (touchedNow env cache s job action) action request)).map Prod.snd := by
  have reverted : (∃ x ∈ plan.revert, x.ordinal = r.ordinal) ↔ ∃ c, candidateFor env cache action r = some c ∧
      lane env (touchedNow env cache s job action) action c = .revert := by
    have here : (∃ x ∈ laneRows env cache s job action .revert, x.ordinal = r.ordinal ∧ True) ↔ _ :=
      exists_lane numbered ofJob .revert fun _ => True
    simpa [is.revert.mem_iff] using here
  have modified : (∃ x ∈ plan.modified, x.ordinal = r.ordinal ∧ request.Names x.targetId) ↔
      ∃ c, candidateFor env cache action r = some c ∧
        lane env (touchedNow env cache s job action) action c = .modified ∧
        request.Names c.row.targetId := by
    have here : (∃ x ∈ laneRows env cache s job action .modified, x.ordinal = r.ordinal ∧
      request.Names x.targetId) ↔ _ :=
      exists_lane numbered ofJob .modified request.Names
    simpa [is.modified.mem_iff] using here
  unfold forceOf
  simp only [reverted, modified]
  cases candidateFor env cache action r with
  | none => simp
  | some c =>
    cases here : lane env (touchedNow env cache s job action) action c with
    | revert => simp [pick, here]
    | modified => by_cases named : request.Names c.row.targetId <;> simp [pick, here, named]
    | unchanged => simp [pick, here]
    | notRevertible => simp [pick, here]

/-- The rows a revert stores are what the job's rows, one by one and in order, are to be stored as. -/
theorem PlanOf.rows_eq (is : PlanOf env cache host s job action plan) (numbered : s.Numbered)
    (asInput : RevertInput → Input) :
    (chosenRows plan request).map (BulkJobService.rowInput asInput job) =
      (rowsOf s job).filterMap (expectedRow asInput job plan request) := by
  rw [is.chosen_eq numbered, selected, candidates, changedRows, List.filterMap_filterMap,
    List.filterMap_filterMap,
    List.map_filterMap]
  refine List.filterMap_congr fun r ofJob => ?_
  have force : forceOf plan request r.ordinal = _ := is.forceOf_eq numbered ofJob
  rw [← Option.bind_assoc]
  change ((candidateFor env cache action r).bind _).map _ = _
  unfold expectedRow
  cases made : candidateFor env cache action r with
  | none =>
    rw [made] at force
    rw [force]
    cases r.targetId <;> cases r.before <;> cases r.after <;> rfl
  | some c =>
    have ofRow := candidateFor_ofRow made
    obtain ⟨targetId, target, lower⟩ := Option.map_eq_some_iff.mp ofRow.target
    rw [made] at force
    rw [force, target, ofRow.before, ofRow.after, ofRow.ranAt]
    cases picked : pick env (touchedNow env cache s job action) action request c with
    | none => simp [picked]
    | some row =>
      have own := pick_row picked
      simp only [Option.bind_some, picked, Option.map_some, BulkJobService.rowInput, own, lower]
      rfl

end Choice

end OpenAduc.Reverts
